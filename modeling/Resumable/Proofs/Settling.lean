import Mathlib.Algebra.GroupWithZero.Nat
import Mathlib.Algebra.Order.BigOperators.Group.List
import Mathlib.Algebra.Order.Group.Nat
import Mathlib.Order.Bounds.Basic
import Resumable.Proofs.CallOrder
import Resumable.Proofs.Guarding

/-! Where function declarations end up. In every round each function goes to the last of its points that lies before
all of what needs it. Functions only ever move to earlier points, so the rounds end, and then no function has a
point left to go to. -/
namespace Resumable
open List

namespace Scoping

/-- The offsets where a function is needed in its region: where it is named, and where closures that
capture it are called. -/
inductive NeededAt (tree : Scoping) (placements : Placements) (id : ClosureIndex) (closure : Closure) : Nat → Prop where
  | named {reference : Reference} (listed : reference ∈ tree.rootReferences)
      (names : tree.liftedDeclaration? reference = some id)
      (home : tree.regionAround reference.scope = tree.homeRegion closure) :
    NeededAt tree placements id closure reference.span.start
  | captured {capturer : ClosureIndex} {unit : Closure} (found : tree.closure? capturer = some unit)
      (takes : unit.takes id) (home : tree.homeRegion unit = tree.homeRegion closure) :
    NeededAt tree placements id closure (callSite placements capturer unit).offset

/-- A point of a function that lies before neither its place nor anything that needs it. -/
structure FitsAt (tree : Scoping) (placements : Placements) (id : ClosureIndex) (closure : Closure)
    (start point : Nat) : Prop where
  listed : point ∈ closure.hoistPoints
  before : point ≤ start
  first : ∀ {offset}, tree.NeededAt placements id closure offset → point ≤ offset

variable {tree : Scoping} {placements : Placements} {id : ClosureIndex} {closure : Closure}

section
variable {usage : Usage} {start : Nat} (found : tree.closure? id = some closure)
  (context : closure.context = .declaration false exported statement)
include found context

lemma start_of_initialPlacements (placed : (tree.initialPlacements usage).of? id = some (.bound start isMutable)) :
    start = statement.start := by
  rw [of?_initialPlacements,found,Option.bind_some,Usage.place?,context] at placed
  simp only [Usage.initialPlacement,Option.some.injEq] at placed
  split at placed
  · split at placed
    · cases placed
    · cases placed
      rfl
  · cases placed
    rfl

lemma bound_at_point (placed : (tree.placements usage).of? id = some (.bound start isMutable)) :
    start = statement.start ∨ start ∈ closure.hoistPoints := by
  refine placements_induction (fun placements => ∀ start isMutable,
    placements.of? id = some (.bound start isMutable) → start = statement.start ∨ start ∈ closure.hoistPoints)
    (fun _ _ placed => .inl (start_of_initialPlacements found context placed)) ?_ start isMutable placed
  · intro placements other unit entry old start isMutable placed
    rcases raise_cases usage placements other unit with same | ⟨_,_,point,_,highest,_,moved⟩
    · exact old start isMutable (same ▸ placed)
    rw [moved,Placements.of?_replace] at placed
    split at placed
    · rename_i same
      subst same
      obtain rfl := Option.some.inj (entry.symm.trans found)
      obtain ⟨_,-,is⟩ := Option.map_eq_some_iff.1 placed
      cases is
      exact .inr (mem_filter.1 (List.max?_mem highest)).1
    · exact old start isMutable placed

end

lemma mem_capturersOf {capturer : ClosureIndex} : capturer ∈ tree.usage.capturersOf id ↔
    ∃ unit, tree.closure? capturer = some unit ∧ unit.takes id := by
  simp only [Usage.capturersOf,usage,mem_filterMap,mem_flatMap]
  constructor
  · rintro ⟨⟨target,i⟩,⟨⟨unit,j⟩,listed,binding,member,arg⟩,picked⟩
    split at arg
    · rename_i named is
      cases arg
      split at picked
      · rename_i same
        cases picked
        exact ⟨unit,mk_mem_zipIdx_iff_getElem?.1 listed,binding,member,is.trans (by simp_all)⟩
      · cases picked
    · cases arg
  · rintro ⟨unit,found,binding,member,arg⟩
    exact ⟨(id, capturer),⟨(unit, capturer),mk_mem_zipIdx_iff_getElem?.2 found,binding,member, by rw [arg]⟩,by simp⟩

lemma le_earliestNeed_iff (found : tree.closure? id = some closure) {start point : Nat} :
    point ≤ tree.earliestNeed tree.usage placements id closure start ↔
      point ≤ start ∧ ∀ {offset}, tree.NeededAt placements id closure offset → point ≤ offset := by
  unfold earliestNeed
  rw [le_min?_iff min?_cons',forall_mem_cons]
  refine and_congr_right fun _ => ⟨fun low offset needed => ?_,fun low offset listed => ?_⟩
  · apply low
    cases needed with
    | named listed names home =>
      refine mem_append_left _ (mem_map_of_mem (mem_usesOf.2 ⟨listed,names,?_⟩))
      simpa [homeRegionOf,found] using home
    | captured entry takes home =>
      refine mem_append_right _ (mem_filterMap.2 ⟨_,mem_capturersOf.2 ⟨_,entry,takes⟩,?_⟩)
      simp [entry,home]
  · rcases mem_append.1 listed with used | called
    · obtain ⟨reference,use,rfl⟩ := mem_map.1 used
      obtain ⟨made,names,home⟩ := mem_usesOf.1 use
      exact low (.named made names (by simpa [homeRegionOf,found] using home))
    · obtain ⟨capturer,captures,site⟩ := mem_filterMap.1 called
      obtain ⟨unit, entry,takes⟩ := mem_capturersOf.1 captures
      simp only [entry,Option.bind_some,beq_iff_eq,Option.ite_none_right_eq_some,Option.some.injEq] at site
      exact site.2 ▸ low (.captured entry takes site.1)

lemma fitsAt_iff (found : tree.closure? id = some closure) {start point : Nat} :
    tree.FitsAt placements id closure start point ↔ point ∈ closure.hoistPoints.filter
      fun point => point ≤ tree.earliestNeed tree.usage placements id closure start := by
  simp only [mem_filter,decide_eq_true_eq,le_earliestNeed_iff found]
  exact ⟨fun fits => ⟨fits.listed,fits.before,fits.first⟩,fun ⟨listed,before,first⟩ => ⟨listed,before,first⟩⟩

/-! ### One move -/

lemma raise_fits (placements : Placements) (found : tree.closure? id = some closure) :
    tree.raise tree.usage placements id closure = placements ∨
    ∃ start isMutable point, placements.of? id = some (.bound start isMutable) ∧ point < start ∧
      tree.FitsAt placements id closure start point ∧
      (∀ other, tree.FitsAt placements id closure start other → other ≤ point) ∧
      tree.raise tree.usage placements id closure = placements.replace id (.bound point isMutable) := by
  rcases raise_cases tree.usage placements id closure with
    same | ⟨start,isMutable,point,placed,highest,low,moved⟩
  · exact .inl same
  · obtain ⟨member,greatest⟩ := max?_eq_some_iff.1 highest
    exact .inr ⟨start,isMutable,point,placed,low,(fitsAt_iff found).2 member,
      fun other fits => greatest other ((fitsAt_iff found).1 fits),moved⟩

lemma fits_of_raise_eq (found : tree.closure? id = some closure) (function : closure.kind = .function)
    (placed : placements.of? id = some (.bound start isMutable))
    (same : tree.raise tree.usage placements id closure = placements)
    (fits : tree.FitsAt placements id closure start point) :
    tree.FitsAt placements id closure start start := by
  obtain ⟨highest,is⟩ : ∃ highest, (closure.hoistPoints.filter fun point =>
      point ≤ tree.earliestNeed tree.usage placements id closure start).max? = some highest :=
    Option.ne_none_iff_exists'.1 fun none => ne_nil_of_mem ((fitsAt_iff found).1 fits) (max?_eq_none_iff.1 none)
  have last := (fitsAt_iff found).2 (max?_mem is)
  simp only [raise,function,bne_self_eq_false,Bool.false_eq_true,if_false,placed,is] at same
  split at same
  · have moved := placements.of?_replace id (.bound highest isMutable) id
    rw [same,placed] at moved
    simp only [if_true,Option.map_some,Option.some.injEq,Placement.bound.injEq,and_true] at moved
    exact moved ▸ moved ▸ last
  · rename_i stays
    exact last.before.antisymm (Nat.le_of_not_lt stays) ▸ last

end Scoping

inductive Placement.LowersTo : Placement → Placement → Prop where
  | inline (only : Script.Span) : LowersTo (.inline only) (.inline only)
  | bound (isMutable : Bool) {start lower : Nat} (low : lower ≤ start) :
    LowersTo (.bound start isMutable) (.bound lower isMutable)

lemma Placement.LowersTo.refl (placement : Placement) : placement.LowersTo placement := by
  cases placement with
  | inline only => exact .inline only
  | bound start isMutable => exact .bound isMutable le_rfl

namespace Scoping

variable {tree : Scoping} {placements : Placements} {id : ClosureIndex} {closure : Closure}

lemma raise_lowers (usage : Usage) (placements : Placements) (id : ClosureIndex) (closure : Closure)
    {other : ClosureIndex} {before : Placement} (placed : placements.of? other = some before) :
    ∃ after, (tree.raise usage placements id closure).of? other = some after ∧ before.LowersTo after := by
  rcases raise_cases usage placements id closure with same | ⟨start,isMutable,point,is,_,low,moved⟩
  · exact ⟨before,by rw [same,placed],.refl before⟩
  rw [moved,Placements.of?_replace]
  split
  · rename_i here
    cases is.symm.trans (here ▸ placed)
    exact ⟨_,by rw [is]; rfl,.bound isMutable low.le⟩
  · exact ⟨before,placed,.refl before⟩

lemma callSite_raise (usage : Usage) (placements : Placements) (id : ClosureIndex) (closure : Closure)
    (other : ClosureIndex) (unit : Closure) :
    (callSite (tree.raise usage placements id closure) other unit).offset ≤
      (callSite placements other unit).offset := by
  rcases raise_cases usage placements id closure with same | ⟨start,isMutable,point,is,_,low,moved⟩
  · rw [same]
  by_cases here : other = id
  · subst here
    have after : (placements.replace other (.bound point isMutable)).of? other =
        some (.bound point isMutable) := by simp [Placements.of?_replace,is]
    cases context : unit.context <;> simp [callSite,moved,after,is,context,low.le]
  · have after : (placements.replace id (.bound point isMutable)).of? other = placements.of? other := by
      simp [Placements.of?_replace,here]
    simp [callSite,moved,after]

/-! ### Rounds -/

/-- The points that a function could still move to, whatever needs it. -/
def pointsBefore (placements : Placements) (entry : Closure × ClosureIndex) : Nat :=
  match placements.of? entry.2 with
  | some (.bound start _) => (entry.1.hoistPoints.filter fun point => point < start).length
  | _ => 0

def pointsLeft (tree : Scoping) (placements : Placements) : Nat :=
  (tree.closures.zipIdx.map (pointsBefore placements)).sum

lemma pointsLeft_lt_moveBound (tree : Scoping) (placements : Placements) :
    tree.pointsLeft placements < tree.moveBound := by
  have few : ∀ entry ∈ tree.closures.zipIdx, pointsBefore placements entry ≤ entry.1.hoistPoints.length := by
    intro entry _
    unfold pointsBefore
    split
    · exact length_filter_le ..
    · exact Nat.zero_le _
  have total : (tree.closures.zipIdx.map fun entry => entry.1.hoistPoints.length).sum =
      (tree.closures.flatMap Closure.hoistPoints).length := by
    conv_rhs => rw [length_flatMap,← zipIdx_map_fst 0 tree.closures,map_map]
    rfl
  exact Nat.lt_succ_of_le (total ▸ sum_le_sum few)

lemma raise_same_or_fewer (usage : Usage) (placements : Placements) (found : tree.closure? id = some closure) :
    tree.raise usage placements id closure = placements ∨
      tree.pointsLeft (tree.raise usage placements id closure) < tree.pointsLeft placements := by
  rcases raise_cases usage placements id closure with same | ⟨start,isMutable,point,is,highest,low,moved⟩
  · exact .inl same
  have after : (placements.replace id (.bound point isMutable)).of? id = some (.bound point isMutable) := by
    simp [Placements.of?_replace,is]
  have fewer : pointsBefore (placements.replace id (.bound point isMutable)) (closure, id) <
      pointsBefore placements (closure, id) := by
    have listed : point ∈ closure.hoistPoints := (mem_filter.1 (max?_mem highest)).1
    simp only [pointsBefore,after,is]
    have both : (closure.hoistPoints.filter fun other => other < point) =
        (closure.hoistPoints.filter fun other => other < start).filter fun other => other < point := by
      rw [filter_filter]
      exact filter_congr fun other _ => by simp; omega
    rw [both]
    exact length_filter_lt_length_iff_exists.2 ⟨point,by simp [listed,low],by simp⟩
  rw [moved]
  refine .inr (sum_lt_sum _ _ (fun entry listed => ?_) ⟨(closure, id),mk_mem_zipIdx_iff_getElem?.2 found,fewer⟩)
  by_cases here : entry.2 = id
  · have same : entry = (closure, id) := by
      have other := mk_mem_zipIdx_iff_getElem?.1 listed
      rw [here] at other
      exact Prod.ext (Option.some.inj (other.symm.trans found)) here
    exact same ▸ fewer.le
  · simp [pointsBefore,Placements.of?_replace,here]

lemma raises_same_or_fewer (usage : Usage) {entries : List (Closure × ClosureIndex)}
    (known : entries ⊆ tree.closures.zipIdx) (placements : Placements) :
    let after := entries.foldl (fun placements (closure, id) => tree.raise usage placements id closure) placements
    (after = placements ∧ ∀ entry ∈ entries, tree.raise usage placements entry.2 entry.1 = placements) ∨
      tree.pointsLeft after < tree.pointsLeft placements := by
  induction entries generalizing placements with
  | nil => exact .inl ⟨rfl,forall_mem_nil _⟩
  | cons entry rest ih =>
    have found := mk_mem_zipIdx_iff_getElem?.1 (known mem_cons_self)
    have next := ih (fun _ listed => known (mem_cons_of_mem _ listed)) (tree.raise usage placements entry.2 entry.1)
    rcases raise_same_or_fewer usage placements found with same | fewer
    · rw [same] at next
      simp only [foldl_cons,same]
      exact next.imp (fun ⟨stays,all⟩ => ⟨stays,forall_mem_cons.2 ⟨same,all⟩⟩) id
    · refine .inr ?_
      rcases next with ⟨stays,_⟩ | more
      · exact stays ▸ fewer
      · exact more.trans fewer

lemma raise_of_raiseAll (usage : Usage) (same : tree.raiseAll usage placements = placements)
    (found : tree.closure? id = some closure) : tree.raise usage placements id closure = placements := by
  rcases raises_same_or_fewer usage (Subset.refl _) placements with ⟨_,all⟩ | fewer
  · exact all (closure, id) (mk_mem_zipIdx_iff_getElem?.2 found)
  · rw [raiseAll] at same
    exact absurd (same ▸ fewer) (lt_irrefl _)

/-- Rounds go on until one changes nothing. -/
lemma settle_spec (usage : Usage) (fuel : Nat) (placements : Placements) (enough : tree.pointsLeft placements < fuel) :
    ∃ rounds ≤ tree.pointsLeft placements,
      tree.settle usage fuel placements = (tree.raiseAll usage)^[rounds] placements ∧
      tree.raiseAll usage (tree.settle usage fuel placements) = tree.settle usage fuel placements := by
  induction fuel generalizing placements with
  | zero => exact absurd enough (Nat.not_lt_zero _)
  | succ fuel ih =>
    rw [settle]
    by_cases same : tree.raiseAll usage placements = placements
    · rw [if_pos (beq_iff_eq.2 same)]
      exact ⟨0,Nat.zero_le _,rfl,same⟩
    rw [if_neg (mt beq_iff_eq.1 same)]
    have fewer := (raises_same_or_fewer usage (Subset.refl _) placements).resolve_left fun stays => same stays.1
    obtain ⟨rounds,few,reached,stays⟩ := ih (tree.raiseAll usage placements)
      (fewer.trans_le (Nat.le_of_lt_succ enough))
    exact ⟨rounds + 1,few.trans_lt fewer,reached,stays⟩

lemma fits_placements (found : tree.closure? id = some closure) (function : closure.kind = .function)
    (placed : (tree.placements tree.usage).of? id = some (.bound start isMutable))
    (fits : tree.FitsAt (tree.placements tree.usage) id closure start point) :
    tree.FitsAt (tree.placements tree.usage) id closure start start := by
  obtain ⟨_,_,_,same⟩ := settle_spec tree.usage _ _ (tree.pointsLeft_lt_moveBound (tree.initialPlacements tree.usage))
  exact fits_of_raise_eq found function placed (raise_of_raiseAll tree.usage same found) fits

/-! ### What fits in the end -/

lemma needs_of_raise {other : ClosureIndex} {unit : Closure} {point : Nat}
    (first : ∀ {need}, tree.NeededAt (tree.raise tree.usage placements other unit) id closure need →
      point ≤ need) {need : Nat} (needed : tree.NeededAt placements id closure need) : point ≤ need := by
  cases needed with
  | named listed names home => exact first (.named listed names home)
  | captured found takes home => exact (first (.captured found takes home)).trans (callSite_raise ..)

lemma fitting_le_bound (found : tree.closure? id = some closure)
    (context : closure.context = .declaration false exported statement)
    (early : ∀ point ∈ closure.hoistPoints, point ≤ statement.start)
    (placed : (tree.placements tree.usage).of? id = some (.bound start isMutable))
    (listed : point ∈ closure.hoistPoints)
    (first : ∀ {need}, tree.NeededAt (tree.placements tree.usage) id closure need → point ≤ need) :
    point ≤ start := by
  refine placements_induction (fun placements => ∀ start isMutable, placements.of? id = some (.bound start isMutable) →
    (∀ {need}, tree.NeededAt placements id closure need → point ≤ need) → point ≤ start)
    ?_ ?_ start isMutable placed first
  · intro start isMutable placed _
    exact start_of_initialPlacements found context placed ▸ early point listed
  intro placements other unit entry old start isMutable placed first
  rcases raise_fits placements entry with
    same | ⟨before,_,target,was,_,_,last,moved⟩
  · exact old start isMutable (same ▸ placed) (needs_of_raise first)
  rw [moved,Placements.of?_replace] at placed
  split at placed
  · rename_i here
    subst here
    obtain rfl := Option.some.inj (entry.symm.trans found)
    obtain ⟨_,_,is⟩ := Option.map_eq_some_iff.1 placed
    cases is
    exact last point ⟨listed,old before _ was (needs_of_raise first),needs_of_raise first⟩
  · exact old start isMutable placed (needs_of_raise first)

end Scoping

open Scoping in
/-- Moving functions up ends. A move changes no place but to an earlier one, after as many rounds as
functions have points nothing moves any more, and then a function that has a point before everything that
needs it in its region is bound before all of that. -/
theorem functions_settle_before_needs (tree : Scoping) :
    let start := tree.initialPlacements tree.usage
    let final := tree.placements tree.usage
    (∀ placements id closure other before, placements.of? other = some before →
      ∃ after, (tree.raise tree.usage placements id closure).of? other = some after ∧
        before.LowersTo after) ∧
    (∃ rounds ≤ (tree.closures.flatMap Closure.hoistPoints).length, ∀ more ≥ rounds,
      (tree.raiseAll tree.usage)^[more] start = final) ∧
    ∀ id closure offset isMutable, tree.closure? id = some closure → closure.kind = .function →
      final.of? id = some (.bound offset isMutable) →
      (∃ point ∈ closure.hoistPoints, ∀ need, tree.NeededAt final id closure need → point ≤ need) →
      ∀ need, tree.NeededAt final id closure need → offset ≤ need := by
  intro start final
  refine ⟨fun placements id closure _ _ => raise_lowers tree.usage placements id closure,?_,?_⟩
  · have bound := tree.pointsLeft_lt_moveBound start
    obtain ⟨rounds,few,reached,same⟩ := settle_spec tree.usage tree.moveBound start bound
    refine ⟨rounds,few.trans (Nat.le_of_lt_succ bound),fun more later => ?_⟩
    obtain ⟨extra,rfl⟩ := Nat.exists_eq_add_of_le' later
    rw [Function.iterate_add_apply,← reached]
    exact Function.iterate_fixed same extra
  · intro id closure offset isMutable found function placed ⟨point,listed,first⟩ need needed
    rcases Nat.le_total point offset with before | after
    · have fits := fits_placements found function placed ⟨listed,before,fun {_} => first _⟩
      exact fits.first needed
    · exact after.trans (first need needed)

/-- `function outer(x) { use(f); function f() { return g(); } function g() { return [x, f]; } return g; }` -/
def needEachOther : Script.Program where
  span := ⟨0,100⟩
  body := [.function (.mk { span := ⟨0,100⟩, name := some ⟨"outer",⟨9,14⟩⟩, paramsStart := 14 }
    [.slot [] (.bind ⟨"x",⟨15,16⟩⟩) []]
    [.expression (.node .call ⟨20,26⟩ [.name ⟨"use",⟨20,23⟩⟩,.name ⟨"f",⟨24,25⟩⟩]) ⟨20,27⟩,
     .function (.mk { span := ⟨28,56⟩, name := some ⟨"f",⟨37,38⟩⟩, paramsStart := 38 } []
      [.returns [.node .call ⟨50,53⟩ [.name ⟨"g",⟨50,51⟩⟩]] ⟨43,54⟩]),
     .function (.mk { span := ⟨57,88⟩, name := some ⟨"g",⟨66,67⟩⟩, paramsStart := 67 } []
      [.returns [.node .array ⟨79,85⟩ [.name ⟨"x",⟨80,81⟩⟩,.name ⟨"f",⟨83,84⟩⟩]] ⟨72,86⟩]),
     .returns [.name ⟨"g",⟨96,97⟩⟩] ⟨89,98⟩])]

/-- The second function moves up together with the first one, which is used before it and captures it. -/
theorem needEachOther_settles :
    let tree := (analyze everything needEachOther).tree.bindAll
    let final := tree.placements tree.usage
    tree.initialPlacements tree.usage = [(1, .bound 28 false),(2, .bound 57 false)] ∧
    final = [(1, .bound 20 false),(2, .bound 20 false)] ∧
    ∃ closure, tree.closure? 2 = some closure ∧
      ∀ need, tree.NeededAt final 2 closure need → 20 ≤ need := by
  intro tree final
  have settled : final = [(1, .bound 20 false),(2, .bound 20 false)] := by decide +kernel
  have second : (tree.closure? 2).map (fun closure => (closure.kind, closure.hoistPoints)) =
      some (.function, [20,28]) := by decide +kernel
  obtain ⟨closure,found,facts⟩ := Option.map_eq_some_iff.1 second
  obtain ⟨function,points⟩ := Prod.mk.inj facts
  refine ⟨by decide +kernel,settled,closure,found,?_⟩
  have low : 20 ≤ tree.earliestNeed tree.usage final 2 closure 57 := by
    have computed : (tree.closure? 2).map (fun closure =>
      tree.earliestNeed tree.usage final 2 closure 57) = some 20 := by decide +kernel
    obtain ⟨other, entry,is⟩ := Option.map_eq_some_iff.1 computed
    cases found.symm.trans entry
    exact is.ge
  exact (functions_settle_before_needs tree).2.2 2 closure 20 false found function
    (by rw [show tree.placements tree.usage = _ from settled]; rfl)
    ⟨20,by simp [points],fun need => ((Scoping.le_earliestNeed_iff found).1 low).2⟩

lemma hoistPoints_of_declaration {closure : Closure}
    (listed : closure ∈ (analyze setting program).tree.bindAll.closures)
    (context : closure.context = .declaration false exported statement) :
    ∃ inList around, .declaration inList around closure.name statement ∈ program.parts ∧
      closure.hoistPoints = around.filter fun start => start < statement.start := by
  obtain ⟨lists,site,candidate,⟨_,makes⟩,form,name,_,points⟩ := allowed_closure listed
  rw [← form,context] at makes points
  obtain ⟨unnamed,inList,part⟩ := makes
  have own : closure.name = candidate.ownName := by simp [name,unnamed]
  exact ⟨inList,lists.head?.getD [],own ▸ part,points⟩

/-- A nested function is bound at the last statement before it in its list that lies before everything
that needs it in its region, if there is one, and else at some statement there or where it stands. So it
stays where it stands only if no statement comes before it, or if it is needed before all of them. -/
theorem function_bound_at_last_fitting (setting : Selecting) (program : Script.Program)
    (id : ClosureIndex) (closure : Closure) (exported isMutable : Bool) (statement : Script.Span)
    (offset : Nat) (found : (analyze setting program).tree.bindAll.closure? id = some closure)
    (function : closure.kind = .function)
    (context : closure.context = .declaration false exported statement)
    (placed : ((analyze setting program).tree.bindAll.placements
      (analyze setting program).tree.bindAll.usage).of? id = some (.bound offset isMutable)) :
    let tree := (analyze setting program).tree.bindAll
    let needed := tree.NeededAt (tree.placements tree.usage) id closure
    ∃ inList around, .declaration inList around closure.name statement ∈ program.parts ∧
      closure.hoistPoints = (around.filter fun start => start < statement.start) ∧
      (offset = statement.start ∨ offset ∈ closure.hoistPoints) ∧
      ((∃ point ∈ closure.hoistPoints, ∀ need, needed need → point ≤ need) →
        IsGreatest {point | point ∈ closure.hoistPoints ∧ ∀ need, needed need → point ≤ need} offset) ∧
      ((∀ need, needed need → statement.start ≤ need) → closure.hoistPoints ≠ [] →
        offset < statement.start) := by
  intro tree needed
  obtain ⟨inList,around,part,points⟩ := hoistPoints_of_declaration (List.mem_of_getElem? found) context
  have early : ∀ point ∈ closure.hoistPoints, point < statement.start := by
    intro point listed
    rw [points] at listed
    exact of_decide_eq_true (List.mem_filter.1 listed).2
  have last : (∃ point ∈ closure.hoistPoints, ∀ need, needed need → point ≤ need) →
      IsGreatest {point | point ∈ closure.hoistPoints ∧ ∀ need, needed need → point ≤ need} offset := by
    rintro ⟨point,listed,first⟩
    have greatest : ∀ other ∈ closure.hoistPoints, (∀ need, needed need → other ≤ need) → other ≤ offset :=
      fun other member low => Scoping.fitting_le_bound found context
        (fun point listed => (early point listed).le) placed member (low _)
    have fits := Scoping.fits_placements found function placed
      ⟨listed,greatest point listed first,first _⟩
    exact ⟨⟨fits.listed,fun _ => fits.first⟩,fun other low => greatest other low.1 low.2⟩
  refine ⟨inList,around,part,points,Scoping.bound_at_point found context placed,last,?_⟩
  intro later some
  obtain ⟨point,listed⟩ := List.exists_mem_of_ne_nil _ some
  have greatest := last ⟨point,listed,fun need is => (early point listed).le.trans (later need is)⟩
  exact early offset greatest.1.1

/-- `function outer(x) { const a = x; function f() { return a; } return [f, f]; }` -/
def neededLater : Script.Program where
  span := ⟨0,76⟩
  body := [.function (.mk { span := ⟨0,76⟩, name := some ⟨"outer",⟨9,14⟩⟩, paramsStart := 14 }
    [.slot [] (.bind ⟨"x",⟨15,16⟩⟩) []]
    [.variableDecl .const [.slot [] (.bind ⟨"a",⟨26,27⟩⟩) [.name ⟨"x",⟨30,31⟩⟩]] ⟨20,32⟩,
     .function (.mk { span := ⟨33,59⟩, name := some ⟨"f",⟨42,43⟩⟩, paramsStart := 43 } []
      [.returns [.name ⟨"a",⟨55,56⟩⟩] ⟨48,57⟩]),
     .returns [.node .array ⟨67,73⟩ [.name ⟨"f",⟨68,69⟩⟩,.name ⟨"f",⟨71,72⟩⟩]] ⟨60,74⟩])]

lemma neededLater_placed : let tree := (analyze everything neededLater).tree.bindAll
    tree.placements tree.usage = [(1, .bound 20 false)] ∧
    (tree.closure? 1).map (fun closure => ((closure.kind, closure.hoistPoints), closure.context,
        tree.earliestNeed tree.usage (tree.placements tree.usage) 1 closure 33)) =
      some ((.function, [20]), .declaration false false ⟨33,59⟩, 33) := by
  decide +kernel

/-- The function is bound in front of the variable that it captures, though it is used after its
statement only. -/
theorem neededLater_moves : let tree := (analyze everything neededLater).tree.bindAll
    let final := tree.placements tree.usage
    ∃ closure, tree.closure? 1 = some closure ∧ closure.kind = .function ∧
      closure.context = .declaration false false ⟨33,59⟩ ∧ final.of? 1 = some (.bound 20 false) ∧
      ∀ need, tree.NeededAt final 1 closure need → 33 ≤ need := by
  intro tree final
  obtain ⟨closure,found,facts⟩ := Option.map_eq_some_iff.1 neededLater_placed.2
  simp only [Prod.mk.injEq] at facts
  obtain ⟨⟨function,-⟩,context,earliest⟩ := facts
  refine ⟨closure,found,function,context,?_,fun need => ?_⟩
  · exact (congrArg (Placements.of? · 1) neededLater_placed.1 :)
  · exact ((Scoping.le_earliestNeed_iff found).1 earliest.ge).2

theorem neededLater_bound_at_last_fitting : let tree := (analyze everything neededLater).tree.bindAll
    ∃ closure, tree.closure? 1 = some closure ∧ closure.hoistPoints = [20] ∧
      (∃ inList around, .declaration inList around closure.name ⟨33,59⟩ ∈ neededLater.parts ∧
        [20] = around.filter fun start => start < 33) ∧
      IsGreatest {point | point ∈ closure.hoistPoints ∧
        ∀ need, tree.NeededAt (tree.placements tree.usage) 1 closure need → point ≤ need} 20 := by
  intro tree
  obtain ⟨closure,found,facts⟩ := Option.map_eq_some_iff.1 neededLater_placed.2
  simp only [Prod.mk.injEq] at facts
  obtain ⟨⟨function,points⟩,context,earliest⟩ := facts
  obtain ⟨inList,around,part,is,-,last,-⟩ := function_bound_at_last_fitting everything neededLater 1 closure
    false false ⟨33,59⟩ 20 found function context (congrArg (Placements.of? · 1) neededLater_placed.1 :)
  refine ⟨closure,found,points,⟨inList,around,part,points ▸ is⟩,last ⟨20,by simp [points],fun need needed => ?_⟩⟩
  exact Nat.le_trans (by decide) (((Scoping.le_earliestNeed_iff found).1 earliest.ge).2 needed)

end Resumable
