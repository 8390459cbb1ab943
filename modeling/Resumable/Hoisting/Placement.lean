import Resumable.Scope.Basic

/-! Where a hoisted declaration turns back into a value. It becomes one binding that all references
share; a declaration that is used once, after it and in its own scope, is made at that place. A
function needed before its statement moves up to the statement that holds the earliest use. -/
namespace Resumable

open Script (Span)

inductive Placement where
  | inline (only : Span)
  | bound (start : Nat) (mutable : Bool)
  deriving DecidableEq, Repr

structure Usage where
  uses : List (ClosureIndex × Reference)
  captured : List (ClosureIndex × ClosureIndex)

abbrev Placements := List (ClosureIndex × Placement)

/-- The order of calls within a region: by offset, insertions before replacements, then by number. -/
structure CallSite where
  offset : Nat
  rank : Nat
  closure : ClosureIndex
  deriving DecidableEq, Repr

def CallSite.le (a b : CallSite) : Bool :=
  a.offset < b.offset || (a.offset == b.offset &&
    (a.rank < b.rank || (a.rank == b.rank && a.closure ≤ b.closure)))

def Placements.of? (placements : Placements) (id : ClosureIndex) : Option Placement :=
  List.lookup id placements

def Placements.replace (placements : Placements) (id : ClosureIndex) (placement : Placement) :
    Placements :=
  placements.map fun entry => if entry.1 == id then (id, placement) else entry

namespace Scoping

/-- The hoisted declaration that a reference names. Only declarations can be named: the name of any
other closure is made up. -/
def liftedDeclaration? (tree : Scoping) (reference : Reference) : Option ClosureIndex :=
  match reference.mention with
  | .identifier name =>
    match tree.resolve reference.scope name with
    | some ⟨_,.closure id⟩ =>
      (tree.closure? id).bind fun closure =>
        if closure.context.isDeclaration && closure.isLifted then some id else none
    | _ => none
  | _ => none

def homeRegion (tree : Scoping) (closure : Closure) : Option ClosureIndex :=
  tree.regionAround closure.parent

def homeRegionOf (tree : Scoping) (id : ClosureIndex) : Option ClosureIndex :=
  (tree.closure? id).bind tree.homeRegion

def usage (tree : Scoping) : Usage where
  uses := tree.rootReferences.filterMap fun reference =>
    match tree.liftedDeclaration? reference with
    | some id =>
      if tree.regionAround reference.scope == tree.homeRegionOf id then some (id, reference) else none
    | none => none
  captured := (tree.closures.zipIdx).flatMap fun (closure, id) =>
    closure.bindings.filterMap fun binding =>
      match binding.arg with
      | .closure target => some (target, id)
      | _ => none

end Scoping

namespace Usage

def usesOf (usage : Usage) (id : ClosureIndex) : List Reference :=
  usage.uses.filterMap fun entry => if entry.1 == id then some entry.2 else none

def capturersOf (usage : Usage) (id : ClosureIndex) : List ClosureIndex :=
  usage.captured.filterMap fun entry => if entry.1 == id then some entry.2 else none

def takesCall (position : Position) : Bool :=
  position == .plain || position == .constructed || position == .shorthand

def initialPlacement (usage : Usage) (id : ClosureIndex) (closure : Closure) (statement : Span) :
    Placement :=
  let direct := usage.usesOf id
  let standing := Placement.bound statement.start
    (direct.any fun reference => reference.position == .assigned)
  match direct with
  | [only] =>
    if (usage.capturersOf id).isEmpty && only.scope == closure.parent &&
        statement.stop ≤ only.span.start && takesCall only.position then
      .inline only.span
    else standing
  | _ => standing

end Usage

namespace Scoping

def initialPlacements (tree : Scoping) (usage : Usage) : Placements :=
  (tree.closures.zipIdx).filterMap fun (closure, id) =>
    match closure.context with
    | .declaration false _ statement => some (id, usage.initialPlacement id closure statement)
    | _ => none

def callSite (placements : Placements) (id : ClosureIndex) (closure : Closure) : CallSite :=
  match closure.context, placements.of? id with
  | .declaration _ _ statement, some (.bound start _) =>
    ⟨start,if start == statement.start then 1 else 0,id⟩
  | _, some (.inline only) => ⟨only.start,1,id⟩
  | _, _ => ⟨closure.span.start,1,id⟩

def earliestNeed (tree : Scoping) (usage : Usage) (placements : Placements) (id : ClosureIndex)
    (closure : Closure) (start : Nat) : Nat :=
  let used := (usage.usesOf id).map fun reference => reference.span.start
  let called := (usage.capturersOf id).filterMap fun capturer =>
    (tree.closure? capturer).bind fun unit =>
      if tree.homeRegion unit == tree.homeRegion closure then
        some (callSite placements capturer unit).offset
      else none
  (used ++ called).foldl min start

def raise (tree : Scoping) (usage : Usage) (placements : Placements) (id : ClosureIndex)
    (closure : Closure) : Placements :=
  if closure.kind != .function then placements
  else
    match placements.of? id with
    | some (.bound start isMutable) =>
      let earliest := tree.earliestNeed usage placements id closure start
      match (closure.hoistPoints.filter fun point => point ≤ earliest).max? with
      | some point =>
        if point < start then placements.replace id (.bound point isMutable) else placements
      | none => placements
    | _ => placements

def raiseAll (tree : Scoping) (usage : Usage) (placements : Placements) : Placements :=
  (tree.closures.zipIdx).foldl
    (fun placements (closure, id) => tree.raise usage placements id closure) placements

def settle (tree : Scoping) (usage : Usage) : Nat → Placements → Placements
  | 0, placements => placements
  | fuel + 1, placements =>
    let raised := tree.raiseAll usage placements
    if raised == placements then placements else tree.settle usage fuel raised

/-- How often a function can move: each time to an earlier one of its points. -/
def moveBound (tree : Scoping) : Nat := (tree.closures.flatMap Closure.hoistPoints).length + 1

def placements (tree : Scoping) (usage : Usage) : Placements :=
  tree.settle usage tree.moveBound (tree.initialPlacements usage)

/-- Whether a captured closure is not yet bound where the one that captures it is made. A call
within another closure goes by what that closure was given. -/
def capturesLazily (tree : Scoping) (placements : Placements) (known : List (ClosureIndex × ClosureIndex))
    (id : ClosureIndex) (closure : Closure) (target : ClosureIndex) : Bool :=
  match tree.closure? target with
  | none => false
  | some unit =>
    let site := tree.homeRegion closure
    if site == tree.homeRegion unit then
      (callSite placements id closure).le (callSite placements target unit)
    else
      match site with
      | some region => known.contains (region, target)
      | none => false

def addLazy (tree : Scoping) (placements : Placements) (known : List (ClosureIndex × ClosureIndex))
    (entry : Closure × ClosureIndex) : List (ClosureIndex × ClosureIndex) :=
  entry.1.bindings.foldl (fun known binding =>
      match binding.arg with
      | .closure target =>
        if tree.capturesLazily placements known entry.2 entry.1 target then (entry.2, target) :: known
        else known
      | _ => known)
    known

def lazyCaptures (tree : Scoping) (placements : Placements) : List (ClosureIndex × ClosureIndex) :=
  tree.closures.zipIdx.foldl (tree.addLazy placements) []

end Scoping

end Resumable
