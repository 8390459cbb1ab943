import Resumable.Script.Grammar.Types

/-! Elements: markup within expressions. -/
namespace Resumable.Script.Grammar

open Parse

def endTag (child : Bool) (mark : String) : Parse Unit := do
  require mark
  if child then advanceChild else advance

def dashedName : Parse Ident := do
  let token ← token
  if token.kind != .word then unexpected
  let (more, rest) := readDashed (← state).rest
  let span : Span := ⟨token.span.start,token.span.stop + Text.byteLength more⟩
  let text := token.text ++ String.ofList more
  reread { token := { token with text, span }, rest }
  advance
  return ⟨text,span⟩

structure TagName where
  reference : List Expr
  label : String
  span : Span

def isVariableTag (name : String) : Bool :=
  match name.toList with
  | first :: _ => !('a' ≤ first && first ≤ 'z') && !name.toList.contains '-'
  | [] => false

def tagObject (id : Ident) : Expr := if id.name == "this" then .thisValue id.span else .tag id

def tagName : Parse TagName := do
  let first ← start
  let id ← dashedName
  if ← eat ":" then
    let inner ← dashedName
    return ⟨[],id.name ++ ":" ++ inner.name,← spanFrom first⟩
  if ← sees "." then
    let label ← loop (fun label : String => do
      if ← eat "." then
        let property ← dashedName
        return .more (label ++ "." ++ property.name)
      return .stop label) id.name
    return ⟨[tagObject id],label,← spanFrom first⟩
  if id.name == "this" then return ⟨[.thisValue id.span],id.name,id.span⟩
  return ⟨if isVariableTag id.name then [.tag id] else [],id.name,id.span⟩

def expression (r : Rules) : Parse Expr := do
  let first ← start
  within (fun c => { c with inDecorator := false }) do
    let value ← r.assignment true
    if !(← sees ",") then return value
    let values ← loop (fun values : List Expr => do
      if ← eat "," then return .more ((← r.assignment true) :: values)
      return .stop values.reverse) [value]
    return .node .sequence (← spanFrom first) values

def braced (r : Rules) (child : Bool) : Parse (List Expr) := do
  let value ← (do
    if ← sees "\x7d" then return []
    discard (eat "...")
    let value ← within (fun c => { c with operatorIn := true }) (expression r)
    if let .node .sequence span _ := value then report span.start (.misplaced "A comma")
    return [value])
  endTag child "\x7d"
  return value

def attributeValue (r : Rules) : Parse (List Expr) := do
  let token ← token
  if token.kind == .string then
    advance
    return []
  if token.is "\x7b" then
    advance
    if ← sees "\x7d" then report token.span.start (.expected "an expression")
    braced r false
  else if token.is "<" then return [← r.element false]
  else unexpected

def tagAttribute (r : Rules) : Parse (List Expr) := do
  if ← eat "\x7b" then
    expect "..."
    let value ← within (fun c => { c with operatorIn := true }) (expression r)
    expect "\x7d"
    return [value]
  discard dashedName
  if ← eat ":" then discard dashedName
  if ← sees "=" then
    advanceValue
    attributeValue r
  else return []

def tagAttributes (r : Rules) : Parse (List Expr) :=
  loop (fun found : List Expr => do
    let token ← token
    if token.isAny [">","/"] || token.kind == .done then return .stop found
    return .more (found ++ (← tagAttribute r))) []

def children (r : Rules) : Parse (List Expr) :=
  loop (fun found : List Expr => do
    let token ← token
    if token.kind == .done then return .stop found
    if token.kind == .jsxText then
      advanceChild
      return .more found
    if token.is "\x7b" then
      advance
      return .more (found ++ (← braced r true))
    if token.is "<" then
      if ← nextIs fun next => next.is "/" then return .stop found
      return .more (found ++ [← r.element true])
    unexpected) []

def fragment (r : Rules) (first : Nat) (child : Bool) : Parse Expr := do
  endTag true ">"
  let inside ← children r
  expect "<"
  expect "/"
  endTag child ">"
  return .node .element (← spanFrom first) inside

def element (r : Rules) (child : Bool) : Parse Expr := do
  let first ← start
  expect "<"
  if ← sees ">" then fragment r first child
  else
    if !(← seesKind .word) then unexpected
    let name ← tagName
    if (← dialect).types then typeArguments r
    let given ← tagAttributes r
    if ← eat "/" then
      endTag child ">"
      return .node .element (← spanFrom first) (name.reference ++ given)
    endTag true ">"
    let inside ← children r
    expect "<"
    expect "/"
    let closing ← tagName
    if closing.label != name.label then
      report closing.span.start (.expected ("</" ++ name.label ++ ">"))
    endTag child ">"
    return .node .element (← spanFrom first)
      (name.reference ++ given ++ inside ++ closing.reference)

end Resumable.Script.Grammar
