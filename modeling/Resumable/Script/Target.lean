import Resumable.Script.Tree

/-! What may stand on the left of an assignment. An array or an object there is read as an
expression first and then taken as a pattern. -/
namespace Resumable.Script

/-- An expression as the left side of an assignment, with the places of the properties in it that
only a pattern may hold. -/
structure Target where
  value : Expr
  taken : List Nat := []

namespace Target

def invalid (span : Span) : Except Fault Target := .error ⟨span.start,.misplaced "An assignment"⟩

def ofSimple : Expr → Except Fault Target
  | .name id => .ok { value := .target id }
  | .target id => .ok { value := .target id }
  | .node .group span [inner] =>
    match inner with
    | .node .array _ _ | .node .object _ _ => invalid span
    | inner => ofSimple inner
  | .node (.member property) span parts => .ok { value := .node (.member property) span parts }
  | .node (.privateMember id) span parts => .ok { value := .node (.privateMember id) span parts }
  | .node .index span parts => .ok { value := .node .index span parts }
  | .node .typed span parts => .ok { value := .node .typed span parts }
  | other => invalid other.span

def pair (span : Span) (first : Target) (initial : Expr) : Target :=
  { first with value := .node .target span [first.value,initial] }

mutual

def ofExpr : Expr → Except Fault Target
  | .node .array span elements =>
    (ofElements elements).map fun (values, taken) => ⟨.node .target span values,taken⟩
  | .node .object span properties =>
    (ofProperties properties).map fun (values, taken) => ⟨.node .target span values,taken⟩
  | other => ofSimple other

def ofPart : Expr → Except Fault Target
  | .assign true span left right => .ok { value := .node .target span [left,right] }
  | .hole span => .ok { value := .hole span }
  | other => ofExpr other

def ofElements : List Expr → Except Fault (List Expr × List Nat)
  | [] => .ok ([], [])
  | .node .spread span [inner] :: rest =>
    if rest.isEmpty then (ofExpr inner).map fun target =>
        ([.node .spread span [target.value]], target.taken)
    else .error ⟨span.start,.misplaced "A rest element"⟩
  | part :: rest => do
    let first ← ofPart part
    let (values, taken) ← ofElements rest
    return (first.value :: values, first.taken ++ taken)

def ofProperty : Expr → Except Fault Target
  | .node (.property .shorthand _) span [.name id] => .ok { value := .node .target span [.target id] }
  | .node (.property .shorthand _) span [.name id,initial] =>
    .ok { value := .node .target span [.target id,initial], taken := [span.start] }
  | .node (.property .plain _) span [value] =>
    (ofPart value).map fun target => { target with value := .node .target span [target.value] }
  | .node (.property .plain _) span [key,value] =>
    (ofPart value).map fun target => { target with value := .node .target span [key,target.value] }
  | other => invalid other.span

def ofProperties : List Expr → Except Fault (List Expr × List Nat)
  | [] => .ok ([], [])
  | .node .spread span [inner] :: rest =>
    if rest.isEmpty then (ofExpr inner).map fun target =>
        ([.node .spread span [target.value]], target.taken)
    else .error ⟨span.start,.misplaced "A rest element"⟩
  | property :: rest => do
    let first ← ofProperty property
    let (values, taken) ← ofProperties rest
    return (first.value :: values, first.taken ++ taken)

end

end Target

end Resumable.Script
