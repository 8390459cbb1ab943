import Resumable.Script.Grammar.Functions

/-! Classes and their members. -/
namespace Resumable.Script.Grammar

open Parse

/-- The words in front of a member. A `static` that opens a block is not one of them. -/
def memberModifiers : Parse (List String) :=
  loop (fun found : List String => do
    let token ← token
    let opensBlock ← (do
      if token.is "static" then nextIs fun next => next.is "\x7b" else return false)
    if opensBlock || (token.is "static" && found.contains "static") then return .stop found
    if ← seesModifier then
      advance
      return .more (token.text :: found)
    return .stop found) []

def memberName (r : Rules) : Parse (Key × List Expr) := do
  let token ← token
  if token.kind == .privateName then
    advance
    return (.privateName ⟨token.text,token.span⟩, [])
  propertyName r

def seesConstructor : Parse Bool := do
  let token ← token
  if token.is "constructor" || (token.kind == .string && token.text == "constructor") then
    nextIs fun next => next.isAny ["(","<"]
  else return false

def checkMemberName (isStatic : Bool) (key : Key) : Parse Unit := do
  let taken : Bool := match key with
    | .privateName id => id.name == "constructor"
    | .name _ | .string _ _ =>
      key.text? == some (if isStatic then "prototype" else "constructor")
    | _ => false
  if taken then report key.span.start (.misplaced "This name")

def methodMember (first : Nat) (kind : MethodKind) (modifiers : List String)
    (decorators : List Expr) (key : Key) (keyParts : List Expr) (literal : Func) :
    Parse Member := do
  return .method kind (modifiers.contains "static") decorators key keyParts literal
    (← spanFrom first)

def accessorMember (r : Rules) (first : Nat) (modifiers : List String) (decorators : List Expr) :
    Parse Member := do
  let isGetter ← sees "get"
  advance
  let (key, keyParts) ← memberName r
  checkMemberName (modifiers.contains "static") key
  let literal ← methodLiteral r false false .member
  checkAccessor isGetter literal
  methodMember first .accessor modifiers decorators key keyParts literal

def fieldMember (r : Rules) (first : Nat) (decorators : List Expr) (key : Key) (keyParts : List Expr) :
    Parse Member := do
  typeAnnotation r
  let initial ← within (fun c => { c with await := false, yield := false }) (initialValue r)
  endStatement
  return .field decorators key keyParts initial (← spanFrom first)

def namedMember (r : Rules) (first : Nat) (modifiers : List String) (decorators : List Expr) :
    Parse Member := do
  let isGenerator ← eat "*"
  let (key, keyParts) ← memberName r
  checkMemberName (modifiers.contains "static") key
  if (← dialect).types then discard (eat "?")
  if isGenerator || (← seesAny ["(","<"]) then
    let literal ← methodLiteral r (modifiers.contains "async") isGenerator .member
    methodMember first .method modifiers decorators key keyParts literal
  else
    if (← dialect).types && !(← token).newline then discard (eat "!")
    fieldMember r first decorators key keyParts

def blockMember (r : Rules) (first : Nat) : Parse Member := do
  expect "static"
  expect "\x7b"
  let body ← within (fun c => { c with await := true, yield := false, inFunction := false })
    (upTo "\x7d" (r.statement false))
  expect "\x7d"
  return .block body (← spanFrom first)

def member (r : Rules) : Parse Member := do
  let first ← start
  let decorators ← decorators r
  let modifiers ← memberModifiers
  if ← (do if ← sees "static" then nextIs fun next => next.is "\x7b" else return false) then
    blockMember r first
  else if (← dialect).types && (← opensIndexSignature) then
    indexSignature r
    endTypeMember
    return .signature
  else if (← seesAccessorWord "get") || (← seesAccessorWord "set") then
    accessorMember r first modifiers decorators
  else if !modifiers.contains "static" && (← seesConstructor) then
    let (key, keyParts) ← memberName r
    if modifiers.contains "async" then report key.span.start (.misplaced "async")
    let literal ← methodLiteral r false false .member
    methodMember first .constructor modifiers decorators key keyParts literal
  else
    let token ← token
    if token.isPropertyName || token.is "*" then namedMember r first modifiers decorators
    else unexpected

def classMembers (r : Rules) : Parse (List Member) := do
  expect "\x7b"
  let members ← loop (fun found : List Member => do
    if ← eat ";" then return .more found
    if ← sees "\x7d" then return .stop found.reverse
    return .more ((← member r) :: found)) []
  expect "\x7d"
  return members

def implementedTypes (r : Rules) : Parse (List Ident) :=
  loop (fun found : List Ident => do
    let name ← typeReference r
    if ← eat "," then return .more (name :: found)
    return .stop (name :: found).reverse) []

def heritage (r : Rules) : Parse (List Expr) :=
  loop (fun bases : List Expr => do
    let offset ← start
    if ← eat "extends" then
      if !bases.isEmpty then report offset (.misplaced "extends")
      let base ← r.leftSide
      let base := match base with
        | .node .typed _ [inner] => inner
        | other => other
      typeArguments r
      return .more (bases ++ [base])
    if (← dialect).types && (← sees "implements") then
      advance
      discard (implementedTypes r)
      return .more bases
    return .stop bases) []

def classRest (r : Rules) (first : Nat) (decorators : List Expr) (isAmbient : Bool) :
    Parse ClassLiteral := do
  expect "class"
  let token ← token
  let named := token.isName && !token.is "implements"
  let name ← if named then (do return some (← boundName)) else pure none
  typeParameters r
  let bases ← heritage r
  let members ← classMembers r
  return .mk { span := ← spanFrom first, name, isAmbient } decorators (bases.take 1) members

end Resumable.Script.Grammar
