import Resumable.Keyed
import Resumable.Script.Span

/-! The scopes of a program and the closures found in it. Scopes are numbered in the order in which
they are opened, so a scope comes after the one that it is nested in. -/
namespace Resumable

open Script (Span)

abbrev ScopeIndex := Nat
abbrev ClosureIndex := Nat

inductive ScopeRole where
  | program
  | function
  | arrow
  | method
  | classBody
  | classMember
  | loop
  deriving DecidableEq, Repr

def ScopeRole.bindsThis : ScopeRole → Bool
  | arrow | loop => false
  | _ => true

inductive Mention where
  | identifier (name : String)
  | this (owner : ScopeIndex)
  | arguments (owner : ScopeIndex)
  deriving DecidableEq, Repr

inductive Position where
  | plain
  | shorthand
  | constructed
  | tag
  | assigned
  deriving DecidableEq, Repr

structure Reference where
  mention : Mention
  span : Span
  scope : ScopeIndex
  position : Position := .plain
  deriving DecidableEq, Repr

structure Scope where
  kind : ScopeRole
  parent : Option ScopeIndex
  owner : Span
  /-- The nearest scope that binds `this`, itself included. -/
  thisOwner : ScopeIndex
  declarations : List String := []
  /-- References made in the scope and, once they are closed, in those nested in it. -/
  references : List Reference := []
  exports : List (String × ClosureIndex) := []
  children : List ScopeIndex := []
  imports : List String := []
  closure : Option ClosureIndex := none
  deriving DecidableEq, Repr

inductive LiteralKind where
  | function
  | arrow
  | classLiteral
  deriving DecidableEq, Repr

inductive ClosureForm where
  | declaration (topLevel exported : Bool) (statement : Span)
  | expression
  | objectMethod (member key : Span) (computed : Bool)
  | classMethod (member key : Span) (computed isStatic : Bool)
  /-- `declaration` if what is exported is a declaration and not an expression. -/
  | defaultExport (statement : Span) (declaration : Bool)
  deriving DecidableEq, Repr

namespace ClosureForm

/-- Top-level declarations and default exports stay where they are. -/
def isLifted : ClosureForm → Bool
  | declaration true _ _ => false
  | defaultExport _ _ => false
  | _ => true

def introducesItself : ClosureForm → Bool
  | declaration _ _ _ => true
  | defaultExport _ isDeclaration => isDeclaration
  | _ => false

def isDeclaration : ClosureForm → Bool
  | declaration _ _ _ => true
  | _ => false

def isMethod : ClosureForm → Bool
  | objectMethod _ _ _ | classMethod _ _ _ _ => true
  | _ => false

end ClosureForm

inductive Capture where
  | identifier (name : String)
  | closure (id : ClosureIndex)
  | this (owner : ScopeIndex)
  | arguments (owner : ScopeIndex)
  deriving DecidableEq, Repr

structure Binding where
  param : String
  arg : Capture
  /-- The scope of the captured declaration, or the one that binds `this` or `arguments`. -/
  declaredIn : ScopeIndex
  deriving DecidableEq, Repr

structure Closure where
  name : Option String
  exportName : String
  kind : LiteralKind
  context : ClosureForm
  scope : ScopeIndex
  parent : ScopeIndex
  span : Span
  hasOwnName : Bool := false
  isAsync : Bool := false
  isGenerator : Bool := false
  paramsStart : Nat
  selfName : Option String := none
  selfReferencing : Bool := false
  /-- Where the statements start that come before a nested declaration in its list. -/
  hoistPoints : List Nat := []
  bindings : List Binding := []
  deriving DecidableEq, Repr

namespace Closure

def isLifted (closure : Closure) : Bool := closure.context.isLifted
def params (closure : Closure) : List String := closure.bindings.map Binding.param

end Closure

structure Scoping where
  scopes : List Scope
  closures : List Closure := []
  deriving Repr

inductive Referent where
  | declaration
  | closure (id : ClosureIndex)
  deriving DecidableEq, Repr

structure Resolution where
  scope : ScopeIndex
  target : Referent
  deriving DecidableEq, Repr

namespace Scoping

def root : ScopeIndex := 0

def ofProgram (program : Span) : Scoping :=
  { scopes := [{ kind := .program, parent := none, owner := program, thisOwner := root }] }

def scope? (tree : Scoping) (id : ScopeIndex) : Option Scope := tree.scopes[id]?
def closure? (tree : Scoping) (id : ClosureIndex) : Option Closure := tree.closures[id]?

def updateScope (tree : Scoping) (id : ScopeIndex) (change : Scope → Scope) : Scoping :=
  { tree with scopes := tree.scopes.modify id change }

def updateClosure (tree : Scoping) (id : ClosureIndex) (change : Closure → Closure) : Scoping :=
  { tree with closures := tree.closures.modify id change }

def openScope (tree : Scoping) (kind : ScopeRole) (parent : ScopeIndex) (owner : Span) :
    ScopeIndex × Scoping :=
  let id := tree.scopes.length
  let thisOwner := if kind.bindsThis then id
    else ((tree.scope? parent).map Scope.thisOwner).getD root
  let scopes := tree.scopes.modify parent fun scope =>
    { scope with children := scope.children ++ [id] }
  (id, { tree with scopes := scopes ++ [{ kind, parent := some parent, owner, thisOwner }] })

def declare (tree : Scoping) (id : ScopeIndex) (name : String) : Scoping :=
  tree.updateScope id fun scope =>
    if scope.declarations.contains name then scope
    else { scope with declarations := scope.declarations ++ [name] }

def addExport (tree : Scoping) (id : ScopeIndex) (name : String) (closure : ClosureIndex) :
    Scoping :=
  tree.updateScope id fun scope => { scope with exports := Keyed.insert name closure scope.exports }

def addReference (tree : Scoping) (reference : Reference) : Scoping :=
  tree.updateScope reference.scope fun scope =>
    { scope with references := scope.references ++ [reference] }

def insertClosure (tree : Scoping) (closure : Closure) : ClosureIndex × Scoping :=
  let id := tree.closures.length
  let marked := tree.updateScope closure.scope fun scope => { scope with closure := some id }
  (id, { marked with closures := marked.closures ++ [closure] })

def addImport (tree : Scoping) (name : String) : Scoping :=
  tree.updateScope root fun scope => { scope with imports := scope.imports ++ [name] }

def passUp (tree : Scoping) (id : ScopeIndex) : Scoping :=
  match tree.scope? id with
  | some scope =>
    match scope.parent with
    | some parent =>
      tree.updateScope parent fun outer =>
        { outer with references := outer.references ++ scope.references }
    | none => tree
  | none => tree

def chainOf (tree : Scoping) : Nat → ScopeIndex → List ScopeIndex
  | 0, _ => []
  | fuel + 1, id =>
    match tree.scope? id with
    | some scope =>
      match scope.parent with
      | some parent => id :: tree.chainOf fuel parent
      | none => [id]
    | none => []

/-- A scope and those around it. Each has a smaller number than the one before. -/
def chain (tree : Scoping) (id : ScopeIndex) : List ScopeIndex := tree.chainOf (id + 1) id

def resolveIn (tree : Scoping) (name : String) (id : ScopeIndex) : Option Resolution :=
  match tree.scope? id with
  | some scope =>
    if scope.declarations.contains name then some ⟨id,.declaration⟩
    else (Keyed.get? name scope.exports).map fun closure => ⟨id,.closure closure⟩
  | none => none

def resolve (tree : Scoping) (source : ScopeIndex) (name : String) : Option Resolution :=
  (tree.chain source).findSome? (tree.resolveIn name)

def kindOf (tree : Scoping) (id : ScopeIndex) : ScopeRole := ((tree.scope? id).map Scope.kind).getD .program

/-- The scope whose `arguments` is seen from a scope: the nearest function or method, with nothing
but arrow functions and loops in between. -/
def ownerOfArguments (tree : Scoping) (id : ScopeIndex) : Option ScopeIndex :=
  let passed := fun id => tree.kindOf id == .arrow || tree.kindOf id == .loop
  match (tree.chain id).dropWhile passed with
  | owner :: _ =>
    if tree.kindOf owner == .function || tree.kindOf owner == .method then some owner else none
  | [] => none

def functionScope (tree : Scoping) (id : ScopeIndex) : ScopeIndex :=
  (((tree.chain id).dropWhile fun id => tree.kindOf id == .loop).head?).getD root

def liesWithin (tree : Scoping) (id ancestor : ScopeIndex) : Bool := (tree.chain id).contains ancestor

def liftedAt (tree : Scoping) (id : ScopeIndex) : Option ClosureIndex :=
  ((tree.scope? id).bind Scope.closure).filter fun closure =>
    ((tree.closure? closure).map Closure.isLifted).getD false

/-- The innermost hoisted closure around a scope; none for what stays in the program. -/
def regionAround (tree : Scoping) (id : ScopeIndex) : Option ClosureIndex :=
  (tree.chain id).findSome? tree.liftedAt

def startOf (tree : Scoping) (id : ScopeIndex) : Nat :=
  ((tree.scope? id).map fun scope => scope.owner.start).getD 0

def rootReferences (tree : Scoping) : List Reference := ((tree.scope? root).map Scope.references).getD []

end Scoping

end Resumable
