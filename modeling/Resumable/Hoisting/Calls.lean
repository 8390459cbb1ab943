import Resumable.Edit
import Resumable.Naming
import Resumable.Hoisting.Placement

/-! Calls of factories, and how references are spelled after their closures have been taken out. -/
namespace Resumable

structure Plan where
  tree : Scoping
  file : String
  placements : Placements
  lazy : List (ClosureIndex × ClosureIndex)

def Scoping.plan (tree : Scoping) (file : String) : Plan :=
  let placements := tree.placements tree.usage
  { tree, file, placements, lazy := tree.lazyCaptures placements }

def Closure.checkArity (closure : Closure) (params args : List String) (file : String) :
    Except Diagnostic Unit :=
  let bindings := closure.bindings.length
  if bindings == params.length && params.length == args.length then .ok ()
  else .error
    { invariant := .bindingArity
      message := "Closure '" ++ closure.exportName ++ "' has " ++ toString bindings ++ " bindings, " ++
        toString params.length ++ " parameters and " ++ toString args.length ++ " arguments."
      file
      context := some ("params = [" ++ String.intercalate ", " params ++ "], args = [" ++
        String.intercalate ", " args ++ "]") }

namespace Plan

def placement? (plan : Plan) (id : ClosureIndex) : Option Placement := plan.placements.of? id

def passesThrough (plan : Plan) (owner site : ScopeIndex) : Bool :=
  match plan.tree.regionAround site with
  | some region =>
    match plan.tree.closure? region with
    | some closure => !plan.tree.liesWithin owner closure.scope
    | none => false
  | none => false

def thisText (plan : Plan) (owner site : ScopeIndex) : String :=
  if owner == Scoping.root || !plan.passesThrough owner site then "this"
  else Naming.thisName (plan.tree.startOf owner)

def argumentsText (plan : Plan) (owner site : ScopeIndex) : String :=
  if !plan.passesThrough owner site then "arguments"
  else Naming.argumentsName (plan.tree.startOf owner)

/-- A captured closure as an argument. Where it is declared it is its binding, or a reference to
that if the binding comes later; further in it is the parameter that carries it. -/
def closureText (plan : Plan) (id : ClosureIndex) (closure : Closure) (target : ClosureIndex)
    (name : String) : String :=
  match plan.tree.closure? target with
  | none => name
  | some unit =>
    if plan.tree.homeRegion closure == plan.tree.homeRegion unit &&
        plan.lazy.contains (id, target) then
      "__lazyRef(\"" ++ unit.exportName ++ "\", () => " ++ name ++ ")"
    else name

def unresolved (plan : Plan) (closure : Closure) (name : String) : Diagnostic :=
  { invariant := .missingDeclaration
    message := "Captured binding '" ++ name ++ "' of closure '" ++ closure.exportName ++
      "' does not resolve at its call site."
    file := plan.file }

def argument (plan : Plan) (id : ClosureIndex) (closure : Closure) (binding : Binding) :
    Except Diagnostic String :=
  match binding.arg with
  | .identifier name =>
    if (plan.tree.resolve closure.parent name).map Resolution.scope == some binding.declaredIn then
      .ok name
    else .error (plan.unresolved closure name)
  | .closure target => .ok (plan.closureText id closure target binding.param)
  | .this owner => .ok (plan.thisText owner closure.parent)
  | .arguments owner => .ok (plan.argumentsText owner closure.parent)

def callOf (plan : Plan) (id : ClosureIndex) (closure : Closure) : Except Diagnostic String := do
  let args ← closure.bindings.mapM (plan.argument id closure)
  closure.checkArity closure.params args plan.file
  return closure.exportName ++ "(" ++ String.intercalate ", " args ++ ")"

def call (plan : Plan) (id : ClosureIndex) : Except Diagnostic String :=
  match plan.tree.closure? id with
  | some closure => plan.callOf id closure
  | none => .ok ""

def lazyTag (plan : Plan) (name : String) (closure : Closure) : Diagnostic :=
  { invariant := .cyclicClosures
    message := "JSX tag <" ++ name ++ "> names a closure that is only reachable lazily at this point."
    file := plan.file
    context := some closure.exportName
    hints := ["Declare the component before the closures that render it."] }

def replacement? (plan : Plan) (id : ClosureIndex) (closure : Closure) (reference : Reference)
    (name : String) : Except Diagnostic (Option String) :=
  let region := plan.tree.regionAround reference.scope
  if region == plan.tree.homeRegion closure then
    match plan.placement? id with
    | some (.inline only) =>
      if only == reference.span then (plan.callOf id closure).map some else .ok none
    | _ => .ok none
  else
    match region with
    | some region => .ok (if plan.lazy.contains (region, id) then some (name ++ "()") else none)
    | none => .ok none

def variableEdit (plan : Plan) (reference : Reference) (name : String) : Except Diagnostic (Option Edit) :=
  match plan.tree.liftedDeclaration? reference with
  | none => .ok none
  | some id =>
    match plan.tree.closure? id with
    | none => .ok none
    | some closure => do
      match ← plan.replacement? id closure reference name with
      | none => return none
      | some value =>
        let edit (text : String) : Edit := ⟨reference.span.start,reference.span.stop,text⟩
        match reference.position with
        | .plain => return some (edit value)
        | .constructed => return some (edit ("(" ++ value ++ ")"))
        | .shorthand => return some (edit (name ++ ": " ++ value))
        | .assigned => return none
        | .tag => .error (plan.lazyTag name closure)

def useEdit (plan : Plan) (reference : Reference) : Except Diagnostic (Option Edit) :=
  let edit (text keyword : String) : Option Edit :=
    if text == keyword then none else some ⟨reference.span.start,reference.span.stop,text⟩
  match reference.mention with
  | .this owner => .ok (edit (plan.thisText owner reference.scope) "this")
  | .arguments owner => .ok (edit (plan.argumentsText owner reference.scope) "arguments")
  | .identifier name => plan.variableEdit reference name

end Plan

end Resumable
