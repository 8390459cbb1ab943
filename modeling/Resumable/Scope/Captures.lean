import Resumable.Naming
import Resumable.Scope.Basic

/-! What closures capture. Each reference made within a closure is resolved from the scope it is made
in; those that lead out of the closure become its parameters, in order of first mention. -/
namespace Resumable

namespace Scoping

inductive Demand where
  | nothing
  | itself
  | imported (name : String)
  | binding (binding : Binding)
  deriving DecidableEq, Repr

def identifierDemand (tree : Scoping) (id : ClosureIndex) (closure : Closure) (name : String)
    (source : ScopeIndex) : Demand :=
  match tree.resolve source name with
  | none => .nothing
  | some resolution =>
    if resolution.scope == root then
      if ((tree.scope? root).map fun scope => scope.imports.contains name).getD false then
        .imported name
      else .nothing
    else if tree.liesWithin resolution.scope closure.scope then .nothing
    else
      match resolution.target with
      | .declaration =>
        if resolution.scope == closure.parent && closure.selfName == some name then .itself
        else .binding ⟨name,.identifier name,resolution.scope⟩
      | .closure other =>
        if other == id then .nothing else .binding ⟨name,.closure other,resolution.scope⟩

def demand (tree : Scoping) (id : ClosureIndex) (closure : Closure) (reference : Reference) :
    Demand :=
  match reference.mention with
  | .identifier name => tree.identifierDemand id closure name reference.scope
  | .this owner =>
    if owner == root || tree.liesWithin owner closure.scope then .nothing
    else .binding ⟨Naming.thisName (tree.startOf owner),.this owner,owner⟩
  | .arguments owner =>
    if tree.liesWithin owner closure.scope then .nothing
    else .binding ⟨Naming.argumentsName (tree.startOf owner),.arguments owner,owner⟩

structure Captures where
  bindings : List Binding := []
  selfReferencing : Bool := false
  imports : List String := []
  deriving DecidableEq, Repr

def Captures.add (captures : Captures) : Demand → Captures
  | .nothing => captures
  | .itself => { captures with selfReferencing := true }
  | .imported name =>
    if captures.imports.contains name then captures
    else { captures with imports := captures.imports ++ [name] }
  | .binding binding =>
    if captures.bindings.any fun known => known.param == binding.param then captures
    else { captures with bindings := captures.bindings ++ [binding] }

def captures (tree : Scoping) (id : ClosureIndex) (closure : Closure) : Captures :=
  let references := ((tree.scope? closure.scope).map Scope.references).getD []
  references.foldl (fun captures reference => captures.add (tree.demand id closure reference)) {}

def bindClosure (tree : Scoping) (id : ClosureIndex) : Scoping :=
  match tree.closure? id with
  | none => tree
  | some closure =>
    let captures := tree.captures id closure
    let marked := tree.updateScope closure.scope fun scope =>
      { scope with imports := captures.imports }
    marked.updateClosure id fun closure =>
      { closure with
        bindings := captures.bindings
        selfReferencing := captures.selfReferencing }

def bindAll (tree : Scoping) : Scoping := (List.range tree.closures.length).reverse.foldl bindClosure tree

end Scoping

end Resumable
