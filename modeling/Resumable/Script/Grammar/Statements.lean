import Resumable.Script.Grammar.Expressions

/-! Statements and declarations. -/
namespace Resumable.Script.Grammar

open Parse

def statementOf (value : Expr) : Stmt := .expression value value.span

def condition (r : Rules) : Parse Stmt := do
  expect "("
  let value ← withIn (expression r)
  expect ")"
  return statementOf value

def block (r : Rules) : Parse Stmt := do
  let first ← start
  expect "\x7b"
  let body ← upTo "\x7d" (r.statement false)
  expect "\x7d"
  return .block body (← spanFrom first)

def declarator (r : Rules) (kind : VariableKind) (standing : Bool) : Parse Pattern := do
  let first ← start
  let pattern ← r.pattern
  let stop := (← state).previousStop
  let isName := match pattern with
    | .bind _ => true
    | _ => false
  let token ← token
  if (← dialect).types && isName && !token.newline then discard (eat "!")
  typeAnnotation r
  let initial ← (do if ← eat "=" then return [← r.assignment true] else return [])
  if standing && initial.isEmpty && !(← context).isAmbient then
    if !isName then report first (.expected "an initial value")
    else if kind == .const then report stop (.expected "an initial value")
  return .slot [] pattern initial

def declarators (r : Rules) (kind : VariableKind) (standing : Bool) : Parse (List Pattern) :=
  loop (fun found : List Pattern => do
    let next ← declarator r kind standing
    if ← eat "," then return .more (next :: found)
    return .stop (next :: found).reverse) []

def variableKind (word : String) : VariableKind :=
  if word == "var" then .var else if word == "let" then .let
  else if word == "const" then .const else .using

def variableStatement (r : Rules) (first : Nat) : Parse Stmt := do
  let kind := variableKind (← token).text
  advance
  let slots ← declarators r kind true
  endStatement
  return .variableDecl kind slots (← spanFrom first)

def enumMember (r : Rules) : Parse (List Expr) := do
  let token ← token
  if token.kind == .number || token.kind == .bigint then
    report token.span.start (.misplaced "A numeric name")
  let (_, keyParts) ← propertyName r
  if ← eat "=" then return keyParts ++ [← withIn (r.assignment true)]
  return keyParts

def enumeration (r : Rules) (first : Nat) : Parse Stmt := do
  expect "enum"
  let id ← boundName
  let initials ← enclosed "\x7b" "\x7d" "," (enumMember r)
  return .enumeration id initials.flatten (← spanFrom first)

def usedIn (id : Ident) : Expr :=
  if id.name == "this" then .thisValue id.span else if id.name == "super" then .superValue id.span else .name id

def interface (r : Rules) (first : Nat) : Parse Stmt := do
  expect "interface"
  discard boundName
  typeParameters r
  let bases ← (do if ← eat "extends" then implementedTypes r else return [])
  let keys ← typeMembers r
  return .typeOnly ((bases.map usedIn ++ keys).map fun value => .expression value value.span) (← spanFrom first)

def typeAlias (r : Rules) (first : Nat) : Parse Stmt := do
  expect "type"
  discard boundName
  typeParameters r
  expect "="
  r.type
  endStatement
  return .typeOnly [] (← spanFrom first)

def namespaceBody (r : Rules) : Parse (List Stmt) := do
  expect "\x7b"
  let body ← upTo "\x7d" (r.statement false)
  expect "\x7d"
  return body

def namespaceDeclaration (r : Rules) (first : Nat) : Parse Stmt := do
  advance
  let body ← (do
    if ← seesKind .string then
      advance
      if ← sees "\x7b" then namespaceBody r
      else
        endStatement
        return []
    else
      discard dottedName
      namespaceBody r)
  return .typeOnly body (← spanFrom first)

def globalDeclaration (r : Rules) (first : Nat) : Parse Stmt := do
  expect "global"
  if ← sees "\x7b" then
    let body ← namespaceBody r
    return .ambient body (← spanFrom first)
  endStatement
  return .typeOnly [] (← spanFrom first)

def importAlias (r : Rules) (first : Nat) : Parse Stmt := do
  expect "="
  if ← (do if ← sees "require" then nextIs fun next => next.is "(" else return false) then
    discard (r.leftSide)
    endStatement
    return .typeOnly [] (← spanFrom first)
  else
    let name ← dottedName
    endStatement
    return .typeOnly [.expression (usedIn name) name.span] (← spanFrom first)

def declarationModifiers : Parse (List String) :=
  loop (fun found : List String => do
    let token ← token
    if token.isAny ["declare","abstract","async","public","private","protected","readonly",
        "static","accessor","override"] then
      if ← nextIs fun next => !next.newline && next.kind == .word then
        advance
        return .more (token.text :: found)
    return .stop found) []

def declarationOf (r : Rules) (first : Nat) (decorators : List Expr) (modifiers : List String) :
    Parse Stmt := do
  let token ← token
  let isAmbient := modifiers.contains "declare"
  if token.is "class" then return .classDecl (← classRest r first decorators isAmbient)
  if let some decorator := decorators.head? then
    report decorator.span.start (.misplaced "A decorator")
  let types := (← dialect).types
  if token.is "function" then
    return .function (← functionLiteral r first (modifiers.contains "async") .declaration)
  else if token.is "const" && types && (← nextIs fun next => next.is "enum") then
    advance
    enumeration r first
  else if token.isAny ["var","let","const"] then variableStatement r first
  else if token.is "using" then variableStatement r first
  else if token.is "async" then
    advance
    return .function (← functionLiteral r first true .declaration)
  else if !types then unexpected
  else if token.is "enum" then enumeration r first
  else if token.is "interface" then interface r first
  else if token.is "type" then typeAlias r first
  else if token.isAny ["namespace","module"] then namespaceDeclaration r first
  else if token.is "global" then globalDeclaration r first
  else if token.is "import" then
    advance
    discard boundName
    importAlias r first
  else unexpected

def declaration (r : Rules) (first : Nat) (decorators : List Expr) : Parse Stmt := do
  let modifiers ← (do if (← dialect).types then declarationModifiers else return [])
  within (fun c => { c with isAmbient := c.isAmbient || modifiers.contains "declare" })
    (declarationOf r first decorators modifiers)

def startsDeclaration : Parse Bool :=
  look (loop (fun _ : Unit => do
    let token ← token
    if token.isAny ["var","let","const","function","class","enum"] then return .stop true
    if token.isAny ["interface","type"] then
      return .stop (← nextIs fun next => next.isName && !next.newline)
    if token.isAny ["module","namespace"] then
      return .stop (← nextIs fun next => !next.newline && (next.isName || next.kind == .string))
    if token.is "global" then
      return .stop (← nextIs fun next => next.isName || next.isAny ["\x7b","export"])
    if token.is "import" then
      return .stop (← nextIs fun next =>
        next.kind == .string || next.kind == .word || next.isAny ["*","\x7b"])
    if token.isAny ["abstract","accessor","async","declare","private","protected","public",
        "readonly","static"] then
      advance
      if (← Parse.token).newline && !token.is "static" then return .stop false
      return .more ()
    return .stop false) ())

def branch (r : Rules) : Parse Stmt := do
  let first ← start
  expect "if"
  let test ← condition r
  let yes ← r.statement true
  if ← eat "else" then
    let no ← r.statement true
    return .compound [test,yes,no] (← spanFrom first)
  return .compound [test,yes] (← spanFrom first)

def whileLoop (r : Rules) : Parse Stmt := do
  let first ← start
  expect "while"
  let test ← condition r
  let body ← r.statement true
  return .loop [test,body] (← spanFrom first)

def doLoop (r : Rules) : Parse Stmt := do
  let first ← start
  expect "do"
  let body ← r.statement true
  expect "while"
  let test ← condition r
  discard (eat ";")
  return .loop [body,test] (← spanFrom first)

def countedRest (r : Rules) (first : Nat) (isAwait : Bool) (initial : List Stmt) : Parse Stmt := do
  expect ";"
  let test ← (do
    if ← seesAny [";",")"] then return []
    return [statementOf (← withIn (expression r))])
  expect ";"
  let step ← (do
    if ← sees ")" then return []
    return [statementOf (← withIn (expression r))])
  expect ")"
  if isAwait then report first (.misplaced "await")
  let body ← r.statement true
  return .loop (initial ++ test ++ step ++ [body]) (← spanFrom first)

def itemRest (r : Rules) (first : Nat) (isAwait : Bool) (item : Stmt) : Parse Stmt := do
  let overKeys ← sees "in"
  advance
  let value ← withIn (if overKeys then expression r else r.assignment true)
  expect ")"
  if isAwait && overKeys then report first (.misplaced "await")
  let body ← r.statement true
  return .loop [item,statementOf value,body] (← spanFrom first)

def seesLoopVariables : Parse Bool := do
  let token ← token
  if token.isAny ["var","const"] then return true
  if token.is "let" then nextIs fun next => next.isName || next.isAny ["[","\x7b"]
  else if token.is "using" then nextIs fun next => next.isName && !next.newline && !next.is "of"
  else return false

def forLoop (r : Rules) : Parse Stmt := do
  let first ← start
  expect "for"
  let awaitStart ← start
  let isAwait ← eat "await"
  if isAwait && !(← context).await then report awaitStart (.misplaced "await")
  expect "("
  if ← sees ";" then return ← countedRest r first isAwait []
  let withoutIn {α : Type} (reader : Parse α) : Parse α :=
    within (fun c => { c with operatorIn := false }) reader
  if ← seesLoopVariables then
    let declStart ← start
    let kind := variableKind (← token).text
    advance
    let slots ← withoutIn (declarators r kind false)
    let item := Stmt.variableDecl kind slots (← spanFrom declStart)
    if ← seesAny ["in","of"] then return ← itemRest r first isAwait item
    return ← countedRest r first isAwait [item]
  if ← sees ")" then return ← countedRest r first isAwait []
  let value ← withoutIn (expression r)
  if ← seesAny ["in","of"] then
    let target ← asTarget Target.ofExpr value
    return ← itemRest r first isAwait (statementOf target)
  countedRest r first isAwait [statementOf value]

def emptyStatement : Parse Stmt := do
  let token ← token
  advance
  return .compound [] token.span

def pause : Parse Stmt := do
  let first ← start
  advance
  endStatement
  return .compound [] (← spanFrom first)

def jump : Parse Stmt := do
  let first ← start
  advance
  if !(← atStatementEnd) then
    let token ← token
    if token.isName then advance
  endStatement
  return .compound [] (← spanFrom first)

def returnStatement (r : Rules) : Parse Stmt := do
  let first ← start
  advance
  if !(← context).inFunction then report first (.misplaced "return")
  if ← atStatementEnd then
    discard (eat ";")
    return .returns [] (← spanFrom first)
  let value ← withIn (expression r)
  endStatement
  return .returns [value] (← spanFrom first)

def throwStatement (r : Rules) : Parse Stmt := do
  let first ← start
  advance
  if (← token).newline then report (← state).previousStop (.misplaced "A line break")
  let value ← withIn (expression r)
  endStatement
  return .compound [statementOf value] (← spanFrom first)

def withStatement (r : Rules) : Parse Stmt := do
  let first ← start
  expect "with"
  let object ← condition r
  let body ← r.statement true
  return .compound [object,body] (← spanFrom first)

def switchCase (r : Rules) : Parse Stmt := do
  let first ← start
  let test ← (do
    if ← eat "default" then return []
    if ← eat "case" then return [← withIn (expression r)]
    unexpected)
  expect ":"
  let body ← loop (fun found : List Stmt => do
    if ← seesAny ["case","default","\x7d"] then return .stop found.reverse
    return .more ((← r.statement false) :: found)) []
  return .case test body (← spanFrom first)

def switchStatement (r : Rules) : Parse Stmt := do
  let first ← start
  expect "switch"
  let subject ← condition r
  expect "\x7b"
  let cases ← upTo "\x7d" (switchCase r)
  expect "\x7d"
  return .compound (subject :: cases) (← spanFrom first)

def catchClause (r : Rules) : Parse Stmt := do
  let first ← start
  expect "catch"
  let pattern ← (do
    if ← eat "(" then
      let pattern ← r.pattern
      typeAnnotation r
      expect ")"
      return [pattern]
    return [])
  let body ← block r
  return .handler pattern body (← spanFrom first)

def tryStatement (r : Rules) : Parse Stmt := do
  let first ← start
  expect "try"
  let body ← block r
  let handler ← (do if ← sees "catch" then return [← catchClause r] else return [])
  let finalizer ← (do if ← eat "finally" then return [← block r] else return [])
  if handler.isEmpty && finalizer.isEmpty then report body.span.stop (.expected "catch or finally")
  return .compound (body :: handler ++ finalizer) (← spanFrom first)

def expressionStatement (r : Rules) : Parse Stmt := do
  let first ← start
  let value ← withIn (expression r)
  if let .name _ := value then
    if ← eat ":" then
      let body ← r.statement true
      return .compound [body] (← spanFrom first)
  endStatement
  return .expression value (← spanFrom first)

def seesLet (single : Bool) : Parse Bool := do
  if !(← sees "let") then return false
  nextIs fun next =>
    let operator := assignmentOperators.any next.is || (operatorStrength? next).isSome
    if operator && !next.isAny ["as","satisfies"] then false
    else if next.isAny [".","(",";"] || next.kind == .done then false
    else !single || next.is "["

def seesUsing : Parse Bool := do
  if !(← sees "using") then return false
  nextIs fun next => next.isName && !next.newline

def seesAwaitUsing : Parse Bool := do
  if !(← sees "await") then return false
  look do
    advance
    let token ← token
    if !token.is "using" || token.newline then return false
    advance
    let next ← Parse.token
    return next.isName && !next.newline

def checkSingle (single : Bool) (statement : Stmt) : Parse Stmt := do
  if single then
    let misplaced : Bool := match statement with
      | .variableDecl kind _ _ => kind != .var
      | .classDecl _ => true
      | .function literal => literal.head.isAsync || literal.head.isGenerator
      | _ => false
    if misplaced then report statement.span.start (.misplaced "A declaration")
  return statement

def declarationWords : List String :=
  ["interface","type","module","namespace","declare","enum","private","protected","public",
   "abstract","accessor","static","readonly","global"]

end Resumable.Script.Grammar
