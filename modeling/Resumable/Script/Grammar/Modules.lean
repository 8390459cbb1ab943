import Resumable.Script.Grammar.Statements

/-! Imports and exports. -/
namespace Resumable.Script.Grammar

open Parse

def noteModule : Parse Unit := modify fun state => { state with moduleSyntax := true }

def exportedName : Parse (Ident × Token) := do
  let token ← token
  if token.kind != .word && token.kind != .string then unexpected
  advance
  return (⟨token.text,token.span⟩, token)

def seesExportedName : Parse Bool := do
  let token ← token
  return token.kind == .word || token.kind == .string

/-- A name in an import or export list and the name it is given there. A leading `type` is a word
of its own unless the list uses it as the name. -/
def specifier : Parse ((Ident × Token) × (Ident × Token)) := do
  let types := (← dialect).types
  let name ← exportedName
  let finish (name : Ident × Token) : Parse ((Ident × Token) × (Ident × Token)) := do
    if ← eat "as" then return (name, ← exportedName)
    return (name, name)
  if !(types && name.2.is "type") then finish name
  else if ← sees "as" then
    let firstAs ← exportedName
    if ← sees "as" then
      let secondAs ← exportedName
      if ← seesExportedName then return (firstAs, ← exportedName)
      return (name, secondAs)
    if ← seesExportedName then return (name, ← exportedName)
    return (firstAs, firstAs)
  else if ← seesExportedName then finish (← exportedName)
  else return (name, name)

def importAttributes (r : Rules) : Parse Unit := do
  let token ← token
  if token.is "with" || (token.is "assert" && !token.newline) then
    advance
    discard (enclosed "\x7b" "\x7d" "," do
      discard (propertyName r)
      expect ":"
      if !(← seesKind .string) then unexpected
      advance)

def modulePath (r : Rules) : Parse Unit := do
  if !(← seesKind .string) then unexpected
  advance
  importAttributes r

def importList : Parse (List Ident) := do
  let specifiers ← enclosed "\x7b" "\x7d" "," specifier
  specifiers.forM fun (_, name) => do
    if !name.2.isName then failAt name.2.span.start (.expected "a name")
  return specifiers.map fun (_, (id, _)) => id

def seesTypeImport : Parse Bool := do
  if !((← dialect).types && (← sees "type")) then return false
  look do
    advance
    if ← seesAny ["\x7b","*"] then return true
    let token ← token
    if !token.isName then return false
    if !token.is "from" then return true
    advance
    sees "from"

def seesPhase : Parse Bool := do
  if ← sees "defer" then nextIs fun next => next.is "*"
  else if ← sees "source" then nextIs fun next => next.isName && !next.is "from"
  else return false

def importedNames : Parse (List Ident) := do
  if ← eat "*" then
    expect "as"
    return [← boundName]
  importList

def importRest (r : Rules) (first : Nat) : Parse Stmt := do
  noteModule
  if ← seesKind .string then
    modulePath r
    endStatement
    return .imports [] (← spanFrom first)
  if ← seesTypeImport then advance
  if ← seesPhase then advance
  if (← token).isName then
    let id ← boundName
    if (← dialect).types && (← sees "=") then return ← importAlias r first
    let more ← (do if ← eat "," then importedNames else return [])
    expect "from"
    modulePath r
    endStatement
    return .imports (id :: more) (← spanFrom first)
  let names ← importedNames
  expect "from"
  modulePath r
  endStatement
  return .imports names (← spanFrom first)

def importStatement (r : Rules) : Parse Stmt := do
  if ← nextIs fun next => next.isAny ["(","."] then expressionStatement r
  else
    let first ← start
    advance
    importRest r first

def exportList (r : Rules) (first : Nat) : Parse Stmt := do
  let specifiers ← enclosed "\x7b" "\x7d" "," specifier
  let exported := specifiers.map fun (_, (id, _)) => id
  if ← eat "from" then
    modulePath r
    endStatement
    return .reexport exported (← spanFrom first)
  specifiers.forM fun ((_, token), _) => do
    if !token.isName then report token.span.start (.expected "a name")
  endStatement
  return .exportNames (specifiers.map fun ((id, _), _) => id) exported (← spanFrom first)

def exportAll (r : Rules) (first : Nat) : Parse Stmt := do
  expect "*"
  let exported ← (do
    if ← eat "as" then
      let (id, _) ← exportedName
      return [id]
    return [])
  expect "from"
  modulePath r
  endStatement
  return .reexport exported (← spanFrom first)

def defaultValue (r : Rules) (outer : List Expr) : Parse Stmt := do
  let first ← start
  let decorators := outer ++ (← decorators r)
  let token ← token
  if token.is "class" then return .classDecl (← classRest r first decorators false)
  if let some decorator := decorators.head? then
    report decorator.span.start (.misplaced "A decorator")
  if token.is "function" then
    return .function (← functionLiteral r first false .defaultExport)
  if token.is "async" && (← nextIs fun next => next.is "function" && !next.newline) then
    advance
    return .function (← functionLiteral r first true .defaultExport)
  if (← dialect).types then
    if token.is "abstract" && (← nextIs fun next => next.is "class" && !next.newline) then
      advance
      return .classDecl (← classRest r first decorators false)
    if token.is "interface" && (← nextIs fun next => next.isName && !next.newline) then
      return ← interface r first
  let value ← withIn (r.assignment true)
  endStatement
  return statementOf value

def exportDefault (r : Rules) (first : Nat) (decorators : List Expr) : Parse Stmt := do
  expect "default"
  let value ← defaultValue r decorators
  return .exportDefault value (← spanFrom first)

def exportedDeclaration (r : Rules) (first : Nat) (outer : List Expr) : Parse Stmt := do
  let inner ← start
  let decorators := outer ++ (← decorators r)
  let value ← declaration r inner decorators
  return .exportDeclaration value (← spanFrom first)

def exportStatement (r : Rules) (first : Nat) (decorators : List Expr) : Parse Stmt := do
  noteModule
  expect "export"
  let token ← token
  let types := (← dialect).types
  if token.is "import" then
    let inner ← start
    advance
    let value ← importRest r inner
    match value with
    | .typeOnly _ _ => return .exportDeclaration value (← spanFrom first)
    | _ => failAt inner (.misplaced "An import")
  else if token.is "=" && types then
    advance
    let value ← withIn (expression r)
    endStatement
    return .compound [statementOf value] (← spanFrom first)
  else if token.is "as" && types && (← nextIs fun next => next.is "namespace") then
    advance
    advance
    discard anyWord
    endStatement
    return .typeOnly [] (← spanFrom first)
  else if token.is "default" then exportDefault r first decorators
  else if token.is "*" then exportAll r first
  else if token.is "\x7b" then exportList r first
  else if token.is "type" && types && (← nextIs fun next => next.is "\x7b") then
    advance
    exportList r first
  else if token.is "type" && types && (← nextIs fun next => next.is "*") then
    advance
    exportAll r first
  else exportedDeclaration r first decorators

def decoratedStatement (r : Rules) : Parse Stmt := do
  let first ← start
  let decorators ← decorators r
  if ← sees "export" then exportStatement r (← start) decorators
  else
    let modifiers ← (do if (← dialect).types then declarationModifiers else return [])
    if ← sees "class" then
      return .classDecl (← classRest r first decorators (modifiers.contains "declare"))
    else unexpected

def wordStatement (r : Rules) (single : Bool) (token : Token) : Parse Stmt := do
  let first := token.span.start
  if token.is "let" && (← seesLet single) then variableStatement r first
  else if token.is "async" && (← nextIs fun next => next.is "function" && !next.newline) then
    advance
    return .function (← functionLiteral r first true .declaration)
  else if ← seesUsing then variableStatement r first
  else if ← seesAwaitUsing then
    advance
    variableStatement r first
  else if (← dialect).types && (token.isAny declarationWords || token.is "async") &&
      (← startsDeclaration) then
    declaration r first []
  else expressionStatement r

def statement (r : Rules) (single : Bool) : Parse Stmt := do
  let token ← token
  let first := token.span.start
  let result ←
    if token.is "\x7b" then block r
    else if token.is ";" then emptyStatement
    else if token.is "if" then branch r
    else if token.is "do" then doLoop r
    else if token.is "while" then whileLoop r
    else if token.is "for" then forLoop r
    else if token.isAny ["break","continue"] then jump
    else if token.is "with" then withStatement r
    else if token.is "switch" then switchStatement r
    else if token.is "throw" then throwStatement r
    else if token.is "try" then tryStatement r
    else if token.is "debugger" then pause
    else if token.is "class" then .classDecl <$> classRest r first [] false
    else if token.is "export" then exportStatement r first []
    else if token.is "return" then returnStatement r
    else if token.is "var" then variableStatement r first
    else if token.is "const" then declarationOf r first [] []
    else if token.is "function" then .function <$> functionLiteral r first false .declaration
    else if token.is "@" then decoratedStatement r
    else if token.is "import" then importStatement r
    else if token.is "enum" && (← dialect).types then declaration r first []
    else wordStatement r single token
  checkSingle single result

end Resumable.Script.Grammar
