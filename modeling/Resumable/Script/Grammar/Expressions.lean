import Resumable.Script.Grammar.Classes
import Resumable.Script.Grammar.Elements
import Resumable.Script.Target

/-! Expressions. -/
namespace Resumable.Script.Grammar

open Parse

def withIn {α : Type} (reader : Parse α) : Parse α := within (fun c => { c with operatorIn := true }) reader

def asTarget (convert : Expr → Except Fault Target) (value : Expr) : Parse Expr := do
  match convert value with
  | .ok target =>
    modify fun state =>
      { state with
        patternOnly := state.patternOnly.filter fun place => !target.taken.contains place }
    return target.value
  | .error fault => failAt fault.offset fault.reason

def argument (r : Rules) : Parse Expr := do
  let first ← start
  if ← eat "..." then
    let value ← r.assignment true
    return .node .spread (← spanFrom first) [value]
  r.assignment true

def arguments (r : Rules) : Parse (List Expr) := withIn (enclosed "(" ")" "," (argument r))

def arrayItem (r : Rules) : Parse Expr := do
  let token ← token
  if token.is "," then return .hole token.span else argument r

def arrayLiteral (r : Rules) : Parse Expr := do
  let first ← start
  let items ← withIn (enclosed "[" "]" "," (arrayItem r))
  return .node .array (← spanFrom first) items

def namedProperty (r : Rules) (first : Nat) (isAsync : Bool) : Parse Expr := do
  let isGenerator ← eat "*"
  let token ← token
  let context ← context
  let isVariable := token.isName && !(context.await && token.is "await") &&
    !(context.yield && token.is "yield")
  let (key, keyParts) ← propertyName r
  if isGenerator || isAsync || (← seesAny ["(","<"]) then
    let literal ← methodLiteral r isAsync isGenerator .property
    return .node (.property .method key) (← spanFrom first) (keyParts ++ [.function literal])
  if isVariable && !(← sees ":") then
    let id : Ident := ⟨token.text,token.span⟩
    if ← eat "=" then
      let initial ← r.assignment true
      modify fun state => { state with patternOnly := state.patternOnly ++ [first] }
      return .node (.property .shorthand key) (← spanFrom first) [.name id,initial]
    return .node (.property .shorthand key) (← spanFrom first) [.name id]
  expect ":"
  let value ← r.assignment true
  return .node (.property .plain key) (← spanFrom first) (keyParts ++ [value])

def propertyItem (r : Rules) : Parse Expr := do
  let first ← start
  if ← sees "..." then argument r
  else
    let isAsync ← (do
      if ← sees "async" then nextIs fun next => !next.newline && next.followsModifier
      else return false)
    if isAsync then advance
    if (← seesAccessorWord "get") || (← seesAccessorWord "set") then
      let isGetter ← sees "get"
      advance
      let (key, keyParts) ← propertyName r
      let literal ← methodLiteral r false false .property
      checkAccessor isGetter literal
      return .node (.property .accessor key) (← spanFrom first) (keyParts ++ [.function literal])
    namedProperty r first isAsync

def objectLiteral (r : Rules) : Parse Expr := do
  let first ← start
  let properties ← withIn (enclosed "\x7b" "\x7d" "," (propertyItem r))
  return .node .object (← spanFrom first) properties

def checkFragment (tagged : Bool) (token : Token) : Parse Unit := do
  if !tagged && token.escaped then report token.span.start .invalidEscape

def templateParts (r : Rules) (tagged : Bool) : Parse (List Expr) := do
  let opening ← token
  checkFragment tagged opening
  if opening.kind == .templateEnd then
    advance
    return []
  advance
  loop (fun found : List Expr => do
    let value ← withIn (expression r)
    resumeTemplate
    let token ← token
    checkFragment tagged token
    match token.kind with
    | .templateEnd =>
      advance
      return .stop (found ++ [value])
    | .templatePart =>
      advance
      return .more (found ++ [value])
    | _ => unexpected) []

def templateLiteral (r : Rules) : Parse Expr := do
  let first ← start
  let parts ← templateParts r false
  return .node .template (← spanFrom first) parts

def taggedTemplate (r : Rules) (first : Nat) (optional : Bool) (tag : Expr) : Parse Expr := do
  let opening ← start
  let parts ← templateParts r true
  if optional then report opening (.misplaced "A template")
  return .node .tagged (← spanFrom first) (tag :: parts)

def seesTemplate : Parse Bool := do
  let kind := (← token).kind
  return kind == .templatePart || kind == .templateEnd

def regexLiteral : Parse Expr := do
  let token ← token
  let rest ← (return (← state).rest : Parse (List Char))
  let reading := readRegex token.span.start token.newline (token.text.toList.drop 1 ++ rest)
  if reading.token.kind == .invalid then
    modify fun state => { state with tokenFaults := reading.faults ++ state.tokenFaults }
    failAt token.span.start (.unterminated "regular expression")
  reread reading
  advance
  return .atom reading.token.span

def groupLiteral (r : Rules) : Parse Expr := do
  let first ← start
  expect "("
  let inner ← start
  let (values, trailing) ← within (fun c => { c with operatorIn := true, inDecorator := false })
    (separated ")" "," (r.assignment true))
  if let some offset := trailing then failAt offset (.expected ")")
  let innerSpan ← spanFrom inner
  expect ")"
  match values with
  | [] => failAt first (.expected "an expression")
  | [value] => return .node .group (← spanFrom first) [value]
  | values => return .node .group (← spanFrom first) [.node .sequence innerSpan values]

def staticMember (first : Nat) (object : Expr) : Parse Expr := do
  let token ← token
  if token.kind == .privateName then
    advance
    return .node (.privateMember ⟨token.text,token.span⟩) (← spanFrom first) [object]
  let property ← anyWord
  return .node (.member property) (← spanFrom first) [object]

def indexMember (r : Rules) (first : Nat) (object : Expr) : Parse Expr := do
  expect "["
  let index ← withIn (expression r)
  expect "]"
  return .node .index (← spanFrom first) [object,index]

structure Chain where
  value : Expr
  optional : Bool := false
  applied : Option Expr := none

def memberStep (r : Rules) (first : Nat) (allowOptional : Bool) (chain : Chain) :
    Parse (Step Chain Chain) := do
  let token ← token
  if token.is "." then
    advance
    return .more { chain with value := ← staticMember first chain.value, applied := none }
  if token.is "[" && !(← context).inDecorator then
    return .more { chain with value := ← indexMember r first chain.value, applied := none }
  if allowOptional && token.is "?." then
    let next ← (look do
      advance
      let next ← Parse.token
      return next.kind == .word || next.kind == .privateName || next.is "[")
    if next then
      advance
      let value ← (do
        if ← sees "[" then indexMember r first chain.value
        else staticMember first chain.value)
      return .more { value, optional := true }
    return .stop chain
  if token.is "!" && (← dialect).types && !token.newline then
    advance
    return .more
      { chain with value := .node .typed (← spanFrom first) [chain.value], applied := none }
  if ← seesTemplate then
    let tag := chain.applied.getD chain.value
    return .more
      { chain with value := ← taggedTemplate r first chain.optional tag, applied := none }
  if ← expressionTypeArguments r then
    return .more
      { chain with
        value := .node .typed (← spanFrom first) [chain.value]
        applied := some chain.value }
  return .stop chain

def members (r : Rules) (first : Nat) (allowOptional : Bool) (chain : Chain) : Parse Chain :=
  loop (memberStep r first allowOptional) chain

def callStep (r : Rules) (first : Nat) (chain : Chain) : Parse (Step Chain Chain) := do
  let chain ← members r first true chain
  if ← sees "?." then
    advance
    discard (expressionTypeArguments r)
    if ← seesTemplate then
      return .more { value := ← taggedTemplate r first true chain.value, optional := true }
    let given ← arguments r
    return .more
      { value := .node .call (← spanFrom first) (chain.value :: given), optional := true }
  if ← sees "(" then
    let callee := chain.applied.getD chain.value
    let given ← arguments r
    return .more
      { chain with value := .node .call (← spanFrom first) (callee :: given), applied := none }
  return .stop chain

def callRest (r : Rules) (first : Nat) (chain : Chain) : Parse Chain := loop (callStep r first) chain

def leftSide (r : Rules) : Parse Expr := do
  let first ← start
  let value ← r.primary
  let chain ← callRest r first { value }
  if !chain.optional then return chain.value
  match chain.applied with
  | some inner => return .node .typed chain.value.span [.node .chain inner.span [inner]]
  | none => return .node .chain (← spanFrom first) [chain.value]

def constructLiteral (r : Rules) : Parse Expr := do
  let first ← start
  expect "new"
  if ← eat "." then
    let token ← token
    advance
    let span ← spanFrom first
    if !token.is "target" then failAt first (.misplaced "This property of new")
    return .atom span
  let calleeStart ← start
  let value ← r.primary
  let chain ← members r calleeStart false { value }
  let callee := chain.applied.getD chain.value
  if ← sees "?." then unexpected
  let given ← (do if ← sees "(" then arguments r else return [])
  if let .node .load _ _ := callee then report calleeStart (.misplaced "A dynamic import")
  return .node .construct (← spanFrom first) (callee :: given)

def importLiteral (r : Rules) : Parse Expr := do
  let first ← start
  expect "import"
  if ← eat "." then
    let token ← token
    advance
    if token.is "meta" then
      modify fun state => { state with moduleSyntax := true }
      return .atom (← spanFrom first)
    if !token.isAny ["source","defer"] then failAt first (.misplaced "This property of import")
  require "("
  let given ← withIn (enclosed "(" ")" "," (r.assignment true))
  if given.isEmpty then unexpected
  return .node .load (← spanFrom first) given

def superLiteral : Parse Expr := do
  let token ← token
  advance
  if !(← seesAny [".","[","("]) then report token.span.start (.misplaced "super")
  return .superValue token.span

def classExpression (r : Rules) (first : Nat) (decorators : List Expr) : Parse Expr :=
  return .classLiteral (← classRest r first decorators false)

def primary (r : Rules) : Parse Expr := do
  let token ← token
  match token.kind with
  | .string =>
    advance
    return .string token.text token.span
  | .number =>
    advance
    return .number token.value token.span
  | .bigint =>
    advance
    return .atom token.span
  | .templatePart | .templateEnd => templateLiteral r
  | .mark =>
    if token.is "(" then groupLiteral r
    else if token.is "[" then arrayLiteral r
    else if token.is "\x7b" then objectLiteral r
    else if token.isAny ["/","/="] then regexLiteral
    else if token.is "@" then
      let decorators ← decorators r
      if ← sees "class" then classExpression r token.span.start decorators else unexpected
    else unexpected
  | .word =>
    if token.is "this" then
      advance
      return .thisValue token.span
    else if token.is "null" then
      advance
      return .null token.span
    else if token.isAny ["true","false"] then
      advance
      return .boolean (token.text == "true") token.span
    else if token.is "function" then
      return .function (← functionLiteral r token.span.start false .expression)
    else if token.is "class" then classExpression r token.span.start []
    else if token.is "new" then constructLiteral r
    else if token.is "super" then superLiteral
    else if token.is "import" then importLiteral r
    else if token.is "async" && (← nextIs fun next => next.is "function" && !next.newline) then
      advance
      return .function (← functionLiteral r token.span.start true .expression)
    else return .name (← usedName)
  | _ => unexpected

def unaryOperators : List String := ["+","-","~","!","typeof","void","delete"]

def Token.followsKeyword (token : Token) : Bool :=
  !token.newline &&
    (token.kind == .word || token.kind == .number || token.kind == .bigint || token.kind == .string)

def seesAwait : Parse Bool := do
  if !(← sees "await") then return false
  if (← context).await then return true
  nextIs Token.followsKeyword

def awaitExpression (r : Rules) : Parse Expr := do
  let first ← start
  if !(← context).await then report first (.misplaced "await")
  advance
  let value ← within (fun c => { c with await := true }) r.unary
  return .node .await (← spanFrom first) [value]

def update (r : Rules) : Parse Expr := do
  let first ← start
  if ← seesAny ["++","--"] then
    advance
    let value ← r.unary
    let target ← asTarget Target.ofSimple value
    return .node .update (← spanFrom first) [target]
  if (← dialect).elements && (← sees "<") then return ← r.element false
  let value ← r.leftSide
  let token ← token
  if token.isAny ["++","--"] && !token.newline then
    advance
    let target ← asTarget Target.ofSimple value
    return .node .update (← spanFrom first) [target]
  return value

def typeAssertion (r : Rules) : Parse Expr := do
  let first ← start
  expect "<"
  r.type
  expect ">"
  let value ← r.unary
  return .node .typed (← spanFrom first) [value]

def unary (r : Rules) : Parse Expr := do
  let token ← token
  if token.isAny unaryOperators then
    advance
    let value ← r.unary
    return .node (.unary token.text) (← spanFrom token.span.start) [value]
  if token.is "<" && !(← dialect).elements then
    if (← dialect).types then typeAssertion r else unexpected
  else if ← seesAwait then awaitExpression r
  else update r

def isUnaryOperation : Expr → Bool
  | .node (.unary _) _ _ => true
  | .node .await _ _ => true
  | _ => false

def mixesDefaults (operator : String) (operand : Expr) : Bool :=
  match operand with
  | .node (.binary inner) _ _ =>
    if operator == "??" then inner == "||" || inner == "&&"
    else (operator == "||" || operator == "&&") && inner == "??"
  | _ => false

def checkOperands (first : Nat) (operator : String) (left right : Expr) : Parse Unit := do
  if mixesDefaults operator left || mixesDefaults operator right then
    report first (.misplaced operator)
  if operator == "**" && isUnaryOperation left then report left.span.start (.misplaced operator)

def operatorsRest (r : Rules) (first strength : Nat) (value : Expr) : Parse Expr :=
  loop (fun left : Expr => do
    joinClosingAngle
    let token ← token
    let context ← context
    match operatorStrength? token with
    | none => return .stop left
    | some own =>
      let weak := if token.is "**" then own < strength else own ≤ strength
      if weak || (token.is "in" && !context.operatorIn) then return .stop left
      if token.isAny ["as","satisfies"] then
        if !context.dialect.types || token.newline then return .stop left
        advance
        r.type
        return .more (.node .typed (← spanFrom first) [left])
      advance
      let right ← r.operators own
      checkOperands first token.text left right
      return .more (.node (.binary token.text) (← spanFrom first) [left,right])) value

def privateOperand : Parse Expr := do
  let token ← token
  advance
  if !(← sees "in") then failAt token.span.start .unexpected
  return .node (.privateName ⟨token.text,token.span⟩) token.span []

def operators (r : Rules) (strength : Nat) : Parse Expr := do
  let first ← start
  let value ← (do
    if (← context).operatorIn && (← seesKind .privateName) then privateOperand else unary r)
  operatorsRest r first strength value

def assignmentOperators : List String :=
  ["=","+=","-=","*=","/=","%=","**=","<<=",">>=",">>>=","&=","|=","^=","&&=","||=",
   "??="]

def seesYield : Parse Bool := do
  if !(← sees "yield") then return false
  if (← context).yield then return true
  nextIs Token.followsKeyword

def yieldExpression (r : Rules) : Parse Expr := do
  let first ← start
  if !(← context).yield then report first (.misplaced "yield")
  advance
  let token ← token
  if token.newline then return .node .yield (← spanFrom first) []
  let delegates ← eat "*"
  let ends := token.isAny [";","\x7d",")","]",":",",","in"] || token.kind == .done
  if ends && !delegates then return .node .yield (← spanFrom first) []
  let value ← within (fun c => { c with yield := true }) (r.assignment true)
  return .node .yield (← spanFrom first) [value]

inductive Certainty where
  | yes
  | no
  | perhaps
  deriving DecidableEq, Repr

def parenthesisCertainty : Parse Certainty := do
  advance
  let second ← token
  if second.is ")" then
    advance
    if ← seesAny ["=>",":","\x7b"] then return .yes else return .no
  if second.isAny ["[","\x7b"] then return .perhaps
  if second.is "..." then
    advance
    return if ← sees "(" then .no else .yes
  advance
  let third ← token
  if second.isAny modifierWords && !second.is "async" && third.isName then
    advance
    return if third.is "as" then .no else .yes
  if !second.isName && !second.is "this" then return .no
  if third.is ":" then return .yes
  if third.is "?" then
    advance
    return if ← seesAny [":",",","=",")"] then .yes else .no
  if third.isAny [",","=",")"] then return .perhaps
  return .no

def angleCertainty : Parse Certainty := do
  advance
  let second ← token
  if !second.isName && !second.is "const" then return .no
  if !(← dialect).elements then return .perhaps
  advance
  if second.is "const" then advance
  let third ← token
  if third.is "extends" then
    advance
    return if ← seesAny ["=",">","/"] then .no else .yes
  return if third.isAny [",","="] then .yes else .no

def arrowCertainty : Parse Certainty := fun context state =>
  let reader : Parse Certainty := do
    if ← sees "async" then
      advance
      let token ← token
      if token.newline || !token.isAny ["(","<"] then return .no
    if ← sees "(" then parenthesisCertainty
    else if ← sees "<" then angleCertainty
    else return .no
  match reader context state with
  | .done answer _ => .done answer state
  | .failed _ _ => .done .no state

def definiteArrow (r : Rules) (returnType : Bool) : Parse Expr := do
  let (first, isAsync, paramsStart, params, _) ← arrowHead r
  arrowBody r first paramsStart isAsync returnType params

def withoutArrow (before after : State) : State :=
  { before with notArrow := before.token.span.start :: after.notArrow }

/-- An arrow function, if what stands here turns out to be one. Where a return type could also be
the rest of a conditional expression, a colon has to follow. The search is not repeated where it
was in vain, so that nested parentheses are not read again and again. -/
def possibleArrow (r : Rules) (returnType : Bool) : Parse (Option Expr) := fun context before =>
  if before.notArrow.contains before.token.span.start then .done none before
  else
    match arrowHead r context before with
    | .failed _ after => .done none (withoutArrow before after)
    | .done (first, isAsync, paramsStart, params, typed) after =>
      let rest : Parse (Option Expr) := do
        let value ← arrowBody r first paramsStart isAsync returnType params
        if !returnType && typed && !(← sees ":") then
          modify (withoutArrow before)
          return none
        return some value
      rest context after

def seesAsyncName : Parse Bool := do
  if !(← sees "async") then return false
  look do
    advance
    let token ← token
    if token.newline || !token.isName then return false
    advance
    sees "=>"

def asyncNameArrow (r : Rules) (returnType : Bool) : Parse Expr := do
  let first ← start
  advance
  let id ← within (fun c => { c with await := true }) boundName
  arrowMark
  arrowBody r first id.span.start true returnType [.slot [] (.bind id) []]

def assignmentRest (r : Rules) (first : Nat) (returnType : Bool) (left : Expr) : Parse Expr := do
  let token ← token
  if let .name id := left then
    if token.is "=>" then
      arrowMark
      return ← arrowBody r first id.span.start false returnType [.slot [] (.bind id) []]
  if token.isAny assignmentOperators then
    let plain := token.is "="
    let target ← asTarget (if plain then Target.ofExpr else Target.ofSimple) left
    advance
    let right ← r.assignment returnType
    return .assign plain (← spanFrom first) target right
  if token.is "?" then
    advance
    let yes ← withIn (r.assignment false)
    expect ":"
    let no ← r.assignment returnType
    return .node .conditional (← spanFrom first) [left,yes,no]
  return left

def assignmentOf (r : Rules) (returnType : Bool) : Parse Expr := do
  let first ← start
  let left ← r.operators 0
  assignmentRest r first returnType left

def assignment (r : Rules) (returnType : Bool) : Parse Expr := do
  if ← seesYield then yieldExpression r
  else
    match ← arrowCertainty with
    | .yes => definiteArrow r returnType
    | .perhaps =>
      match ← possibleArrow r returnType with
      | some value => return value
      | none => if ← seesAsyncName then asyncNameArrow r returnType else assignmentOf r returnType
    | .no => if ← seesAsyncName then asyncNameArrow r returnType else assignmentOf r returnType

end Resumable.Script.Grammar
