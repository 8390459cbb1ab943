import Resumable.Proofs.FactoryCalls
import Resumable.Proofs.Settling
import Resumable.Proofs.TextOrder
import Mathlib.Data.List.Pairwise

/-! Edits that do not run into each other. In a program whose tree stands in its text in order, every edit of a
region replaces a mark of that region, and marks of one region are clear of each other. Only the edits of a default
export are made to the program wherever it stands, and run into a literal that is taken out around it. -/
namespace Resumable
open Script List Bool Plan
variable {i : ClosureIndex} {s : ScopeIndex} {edit : Edit} {mark : Mark}

/-! ### Edits that pass the check -/

namespace Edit

def span (edit : Edit) : Span := ⟨edit.start,edit.stop⟩

variable {edits : List Edit} {file : String}

lemma clash?_eq_none (ordered : ∀ edit ∈ edits, edit.start ≤ edit.stop)
    (sorted : edits.Pairwise fun a b => a.before b = true)
    (clear : edits.Pairwise fun a b => a.span.Clear b.span) : clash? edits = none := by
  induction edits with
  | nil => rfl
  | cons first rest ih =>
    cases rest with
    | nil => rfl
    | cons second others =>
      obtain ⟨ahead,sorted⟩ := pairwise_cons.1 sorted
      obtain ⟨apart,clear⟩ := pairwise_cons.1 clear
      have before := ahead second mem_cons_self
      have stays : ¬second.start < first.stop := by
        have upright := ordered second (mem_cons_of_mem _ mem_cons_self)
        simp only [Edit.before,or_eq_true,and_eq_true,decide_eq_true_eq,beq_iff_eq] at before
        -- if the second ended before the first, both would be at one point
        rcases apart second mem_cons_self with ends | starts
        · exact ends.not_gt
        · simp only [Edit.span] at starts
          omega
      rw [clash?,if_neg stays]
      exact ih (fun edit member => ordered edit (mem_cons_of_mem _ member)) sorted clear

lemma clear_of_check (checked : check file edits = .ok sorted) : edits.Pairwise fun a b => a.span.Clear b.span := by
  have perm : (sort edits).Perm edits := mergeSort_perm edits before
  obtain ⟨rfl,apart⟩ := check_eq_ok checked
  exact (perm.pairwise_iff (R := fun a b : Edit => a.span.Clear b.span) Span.Clear.symm).1 (apart.imp .inl)

lemma check_ok_iff (ordered : ∀ edit ∈ edits, edit.start ≤ edit.stop) :
    (∃ sorted, check file edits = .ok sorted) ↔ edits.Pairwise fun a b => a.span.Clear b.span := by
  refine ⟨fun ⟨_,checked⟩ => clear_of_check checked,fun clear => ?_⟩
  have perm : (sort edits).Perm edits := mergeSort_perm edits before
  have clear' := (perm.pairwise_iff (R := fun a b : Edit => a.span.Clear b.span) Span.Clear.symm).2 clear
  have none := clash?_eq_none (fun edit member => ordered edit (perm.mem_iff.1 member)) (sort_pairwise edits) clear'
  exact ⟨sort edits,by simp only [check,none]⟩

end Edit

/-! ### Regions -/

namespace Scoping

variable {tree : Scoping} {nests : Prop}

namespace Sound

variable {closure : Closure}

variable (sound : tree.Sound nests root)
include sound

lemma parent_lt_scope (found : tree.closure? i = some closure) : closure.parent < closure.scope := by
  obtain ⟨scope, entry,_,up⟩ := sound.owned found
  exact sound.parented entry up

lemma index_eq (foundFirst : tree.closure? i = some first) (foundSecond : tree.closure? j = some second)
    (same : first.scope = second.scope) : i = j := by
  obtain ⟨scope, entry,mark,_⟩ := sound.owned foundFirst
  obtain ⟨other,entry',mark',_⟩ := sound.owned foundSecond
  cases (same ▸ entry).symm.trans entry'
  exact Option.some.inj (mark.symm.trans mark')

lemma closure_of_liftedAt (lifts : tree.liftedAt s = some i) :
    ∃ closure, tree.closure? i = some closure ∧ closure.isLifted = true ∧ closure.scope = s := by
  simp only [liftedAt,Option.filter_eq_some_iff,Option.bind_eq_some_iff] at lifts
  obtain ⟨⟨scope, entry,mark⟩,lifts⟩ := lifts
  obtain ⟨closure,found,own⟩ := sound.owns entry mark
  exact ⟨closure,found,by simpa [found] using lifts,own⟩

section
variable (found : tree.closure? i = some closure) (lifted : closure.isLifted = true)
  (around : closure.scope ∈ tree.chain s)
include found lifted around

lemma region_within : ∃ j inner, tree.regionAround s = some j ∧ tree.closure? j = some inner ∧
      closure.scope ∈ tree.chain inner.scope := by
  obtain ⟨scope, entry,mark,up⟩ := sound.owned found
  have here : tree.liftedAt closure.scope = some i := by simp [liftedAt, entry,mark,found,lifted]
  obtain ⟨front,equal,within⟩ := exists_chain_eq_append sound.parented around
  have split : tree.regionAround s = (front.findSome? tree.liftedAt).or (some i) := by
    rw [regionAround,equal,List.findSome?_append,chain_of_parent sound.parented entry up, List.findSome?_cons,here]
  cases inside : front.findSome? tree.liftedAt with
  | some j =>
    obtain ⟨owner,member,lifts⟩ := exists_of_findSome?_eq_some inside
    obtain ⟨inner,known,-,rfl⟩ := sound.closure_of_liftedAt lifts
    exact ⟨j,inner,by rw [split,inside,Option.some_or],known,within _ member⟩
  | none => exact ⟨i,closure,by rw [split,inside,Option.none_or],found,self_mem_chain sound.parented entry⟩

lemma region_ne : tree.homeRegion closure ≠ tree.regionAround s := by
  intro same
  obtain ⟨j,inner,region,known,within⟩ := sound.region_within found lifted around
  obtain ⟨outer,known',-,above⟩ := sound.closure_of_region (same.trans region)
  cases known.symm.trans known'
  have low : inner.scope ≤ closure.parent := le_of_mem_chain sound.parented above
  have high : closure.scope ≤ inner.scope := le_of_mem_chain sound.parented within
  have between := sound.parent_lt_scope found
  exact absurd (between.trans_le (high.trans low)) (Nat.lt_irrefl _)

end

lemma region_eq (around : outer ∈ tree.chain s)
    (between : ∀ closure ∈ tree.closures, closure.scope ∈ tree.chain s → closure.scope ∈ tree.chain outer) :
    tree.regionAround s = tree.regionAround outer := by
  cases region : tree.regionAround outer with
  | none =>
    cases inner : tree.regionAround s with
    | none => rfl
    | some i =>
      obtain ⟨closure,found,lifted,above⟩ := sound.closure_of_region inner
      obtain ⟨j,_,some_,_⟩ := sound.region_within found lifted (between closure (mem_of_getElem? found) above)
      cases region.symm.trans some_
  | some j =>
    obtain ⟨second,found,lifted,above⟩ := sound.closure_of_region region
    obtain ⟨i,first,inner,known,within⟩ :=
      sound.region_within found lifted (mem_chain_trans sound.parented around above)
    obtain ⟨other,known',firstLifted,reaches⟩ := sound.closure_of_region inner
    cases known.symm.trans known'
    obtain ⟨k,third,again,known'',back⟩ :=
      sound.region_within known firstLifted (between first (mem_of_getElem? known) reaches)
    cases region.symm.trans again
    cases found.symm.trans known''
    have low : first.scope ≤ second.scope := le_of_mem_chain sound.parented back
    have high : second.scope ≤ first.scope := le_of_mem_chain sound.parented within
    rw [inner,sound.index_eq known found (low.antisymm high)]

end Sound
end Scoping

/-! ### Marks of one region -/

/-- A default export that stands in a literal which is taken out of the program. -/
def Scoping.Buries (tree : Scoping) (outer inner : Closure) : Prop :=
  outer.isLifted = true ∧ tree.homeRegion outer = none ∧ outer.scope ∈ tree.chain inner.parent ∧
    ∃ statement, inner.Exports statement ∧ outer.slice.holds statement = true

/-- Whether the text at a mark is edited in a region: in the one around it, or in the program for the
marks of a default export. -/
def Mark.EditedIn (mark : Mark) (source : List Char) (tree : Scoping) (region : Region) : Prop :=
  tree.regionAround mark.scope = region ∨
    region = none ∧ ∃ closure ∈ tree.closures, (∃ statement, closure.Exports statement) ∧ mark ∈ closure.marks source

lemma Closure.Exports.not_hole {source : List Char} {closure : Closure} {statement : Span}
    (exports : closure.Exports statement) (listed : mark ∈ closure.marks source) : mark.hole = none := by
  obtain ⟨isDeclaration,context⟩ := exports
  obtain ⟨⟨span,taken⟩,ranged,rfl⟩ := mem_marks.1 listed
  rw [Closure.ranges,context] at ranged
  cases taken with
  | false => rfl
  | true => cases isDeclaration <;> simp [ClosureForm.ranges] at ranged

namespace Scoping.LaidOut

variable {source : List Char} {tree : Scoping} {marks : List Mark}

/-- Marks that are edited in one region are clear of each other, unless one belongs to a default export
and the other to a literal that buries it. -/
lemma clear_of_editedIn (laidOut : tree.LaidOut source marks) (sound : tree.Sound False root)
    {region : Region} {a b : Mark} (ha : a ∈ marks) (hb : b ∈ marks) (apart : a.Apart tree.chain b)
    (here : a.EditedIn source tree region) (there : b.EditedIn source tree region)
    (unburied : region = none → ∀ outer ∈ tree.closures, ∀ inner ∈ tree.closures,
      ¬tree.Buries outer inner) : a.span.Clear b.span := by
  obtain ⟨high,layout⟩ := laidOut
  -- both alternatives that are left say that one mark is in the hole of the other
  have inHole : ∀ {a b : Mark}, a ∈ marks → b ∈ marks → a.EditedIn source tree region →
      b.EditedIn source tree region → (∃ scope ∈ a.hole, scope ∈ tree.chain b.scope) →
      a.span.Clear b.span := by
    rintro a b ha hb here there ⟨_,hole,within⟩
    obtain ⟨outer,listed,lifted,rfl,own⟩ := layout.holes a ha _ hole
    obtain ⟨i,found⟩ := List.getElem?_of_mem listed
    obtain ⟨⟨span,taken⟩,ranged,rfl⟩ := mem_marks.1 own
    have home : tree.homeRegion outer = region := by
      rcases here with home | ⟨-,inner,-,⟨statement,exports⟩,marked⟩
      · exact home
      · cases (exports.not_hole marked).symm.trans hole
    rcases there with same | ⟨rfl,inner,known,⟨statement,exports⟩,marked⟩
    · exact absurd (home.trans same.symm) (sound.region_ne found lifted within)
    obtain ⟨range,ranged',rfl⟩ := mem_marks.1 marked
    rcases layout.takes outer listed lifted (.statement known exports) within with
      inside | ⟨isClass,before⟩
    · exact absurd ⟨lifted,home,within,statement,exports,inside⟩ (unburied rfl outer listed inner known)
    -- the default export stands in decorators before the class
    have held := (layout.headed inner known statement exports).2 range ranged'
    rw [(layout.covered outer listed lifted).plain isClass] at ranged
    cases mem_singleton.1 ranged
    simp only [Span.holds,and_eq_true,decide_eq_true_eq] at held
    exact .inr (held.2.trans before)
  rcases apart with clear | hole | hole
  · exact clear
  · exact inHole ha hb here there hole
  · exact (inHole hb ha there here hole).symm

end Scoping.LaidOut

/-! ### What edits stand at -/

lemma flatMap_sublist_flatMap {α β : Type} {f g : α → List β} {values : List α}
    (each : ∀ value ∈ values, (f value).Sublist (g value)) :
    (values.flatMap f).Sublist (values.flatMap g) := by
  induction values with
  | nil => exact .slnil
  | cons value rest ih =>
    rw [flatMap_cons,flatMap_cons]
    exact (each value mem_cons_self).append (ih fun other member => each other (mem_cons_of_mem _ member))

def Scoping.editRegion (tree : Scoping) (closure : Closure) : Region :=
  if closure.isLifted then tree.homeRegion closure else none

def Scoping.marksOf (source : List Char) (tree : Scoping) (region : Region) : List Mark :=
  tree.rootReferences.flatMap (fun reference =>
    if tree.regionAround reference.scope = region then [reference.mark] else []) ++
  tree.closures.flatMap fun closure =>
    if tree.editRegion closure = region then closure.marks source else []

namespace Plan

variable {plan : Plan} {id : ClosureIndex} {closure : Closure} {region : Region}

def points (plan : Plan) (id : ClosureIndex) (closure : Closure) : List Span :=
  match closure.context, plan.placement? id with
  | .declaration false _ statement, some (.bound start _) =>
    if start = statement.start then [] else [⟨start,start⟩]
  | _, _ => []

def pointsOf (plan : Plan) (region : Region) : List Span :=
  plan.tree.closures.zipIdx.flatMap fun entry =>
    if plan.tree.editRegion entry.1 = region then plan.points entry.2 entry.1 else []

lemma siteEdits_spans (source : List Char) (lifted : closure.isLifted = true)
    (succeeds : plan.siteEdits id closure = .ok made) :
    made.map Edit.span = plan.points id closure ++ (closure.ranges source).map Prod.fst := by
  unfold siteEdits at succeeds
  rw [Closure.isLifted] at lifted
  unfold points Closure.ranges
  cases context : closure.context with
  | declaration topLevel exported statement =>
    cases topLevel with
    | true => simp [context,ClosureForm.isLifted] at lifted
    | false =>
      simp only [context,declarationEdits] at succeeds ⊢
      split at succeeds
      · rename_i start isMutable placed
        simp only [placed]
        obtain ⟨call,-,succeeds⟩ := bind_eq_ok.1 succeeds
        simp only [beq_iff_eq] at succeeds
        split at succeeds
        · rename_i same
          cases succeeds
          rw [if_pos same]
          rfl
        · rename_i other
          cases succeeds
          rw [if_neg other]
          rfl
      · rename_i other
        cases succeeds
        split
        · rename_i bound
          exact absurd bound (other _ _)
        · rfl
  | expression | objectMethod | classMethod =>
    rw [context] at succeeds
    obtain ⟨_,-,⟨⟩⟩ := bind_eq_ok.1 succeeds
    rfl
  | defaultExport => simp [context,ClosureForm.isLifted] at lifted

end Plan

/-- What stays in place is a declaration of the top level or a default export. -/
lemma Closure.cases_of_stays {closure : Closure} (stays : closure.isLifted = false) :
    (∃ exported statement, closure.context = .declaration true exported statement) ∨
      ∃ statement isDeclaration, closure.context = .defaultExport statement isDeclaration := by
  unfold isLifted ClosureForm.isLifted at stays
  grind

lemma editsInPlace_spans (source : List Char) (exportedNames : List String) (closure : Closure)
    (stays : closure.isLifted = false) :
    ((editsInPlace source exportedNames closure).map Edit.span).Sublist ((closure.ranges source).map Prod.fst) := by
  unfold editsInPlace Closure.ranges
  rcases Closure.cases_of_stays stays with ⟨exported,statement,context⟩ | ⟨statement,isDeclaration,context⟩
  · rw [context]
    dsimp only
    split
    · exact sublist_cons_self _ _
    · exact List.Sublist.refl _
  · rw [context]
    cases isDeclaration with
    | false => exact List.Sublist.refl _
    | true =>
      dsimp only
      split
      · exact (sublist_cons_self _ _).cons_cons _
      · exact List.Sublist.refl _

namespace Plan

variable {plan : Plan} {region : Region}

lemma editsOf_map (edits : List Edit) (own region : Region) :
    editsOf (edits.map (⟨own,·⟩)) region = if own = region then edits else [] := by
  unfold editsOf
  rw [filterMap_map]
  split
  · rename_i same
    simp [same]
  · rename_i other
    simp [other]

lemma useEdit_eq (made : plan.useEdit reference = .ok (some edit)) :
    ∃ text, edit = Edit.ofSpan reference.span text := by
  unfold useEdit at made
  split at made
  iterate 2
    · simp only [Except.ok.injEq] at made
      split at made
      · cases made
      · exact ⟨_,(Option.some.inj made).symm⟩
  · unfold variableEdit at made
    split at made
    · cases made
    split at made
    · cases made
    obtain ⟨_,-,made⟩ := bind_eq_ok.1 made
    split at made
    · cases made
    cases position : reference.position <;> simp only [position] at made <;>
      first
      | exact ⟨_,(Option.some.inj (Except.ok.inj made)).symm⟩
      | cases made

lemma referencePart_spans (plan : Plan) (reference : Reference) (region : Region) :
    ((editsOf (plan.referencePart reference) region).map Edit.span).Sublist
      (if plan.tree.regionAround reference.scope = region then [reference.span] else []) := by
  have part : plan.referencePart reference = ((plan.useEdit reference).toOption.getD none).toList.map
      (⟨plan.tree.regionAround reference.scope,·⟩) := by
    rw [referencePart]
    cases (plan.useEdit reference).toOption.getD none <;> rfl
  rw [part,editsOf_map]
  split
  · cases used : plan.useEdit reference with
    | error => exact nil_sublist _
    | ok made =>
      cases made with
      | none => exact nil_sublist _
      | some edit =>
        obtain ⟨text,rfl⟩ := useEdit_eq used
        exact List.Sublist.refl _
  · exact List.Sublist.refl _

lemma closurePart_spans (plan : Plan) (source : List Char) (exportedNames : List String)
    (entry : Closure × ClosureIndex) (region : Region) :
    ((editsOf (plan.closurePart source exportedNames entry) region).map Edit.span).Sublist
      (if plan.tree.editRegion entry.1 = region then
        plan.points entry.2 entry.1 ++ (entry.1.ranges source).map Prod.fst else []) := by
  unfold closurePart Scoping.editRegion
  cases lifted : entry.1.isLifted with
  | true =>
    simp only [if_true]
    rw [editsOf_map]
    split
    · cases made : plan.siteEdits entry.2 entry.1 with
      | error => exact nil_sublist _
      | ok edits =>
        rw [← siteEdits_spans source lifted made]
        exact List.Sublist.refl _
    · exact List.Sublist.refl _
  | false =>
    simp only [false_eq_true,if_false]
    rw [editsOf_map]
    split
    · exact (editsInPlace_spans source exportedNames entry.1 lifted).trans (sublist_append_right _ _)
    · exact List.Sublist.refl _

variable {source : List Char} {exportedNames : List String} {edits : List RegionEdit}

section
variable (succeeds : plan.edits source exportedNames = .ok edits)
include succeeds

lemma exists_replacing {id : ClosureIndex}
    {closure : Closure} (found : plan.tree.closure? id = some closure) (lifted : closure.isLifted = true)
    {range : Span} {taken : Bool} (ranged : (range, taken) ∈ closure.ranges source) :
    ∃ edit ∈ editsOf (plan.closurePart source exportedNames (closure, id)) (plan.tree.homeRegion closure),
    edit.span = range := by
  obtain ⟨made,ok⟩ := siteEdits_ok succeeds found lifted
  have replaced : range ∈ made.map Edit.span := by
    rw [siteEdits_spans source lifted ok]
    exact mem_append_right _ (mem_map.2 ⟨_,ranged,rfl⟩)
  obtain ⟨edit,member,same⟩ := mem_map.1 replaced
  exact ⟨edit,mem_closurePart source exportedNames lifted ok member,same⟩

/-- Every edit of a region stands at a mark of the region, each at another one, or is inserted at a
point that a declaration moves up to. -/
lemma spans_subperm (region : Region) : ((editsOf edits region).map Edit.span).Subperm
    (plan.pointsOf region ++ (plan.tree.marksOf source region).map Mark.span) := by
  let ranges (entry : Closure × ClosureIndex) : List Span :=
    if plan.tree.editRegion entry.1 = region then (entry.1.ranges source).map Prod.fst else []
  have references : ((plan.tree.rootReferences.flatMap fun reference =>
      editsOf (plan.referencePart reference) region).map Edit.span).Sublist
      (plan.tree.rootReferences.flatMap fun reference =>
        if plan.tree.regionAround reference.scope = region then [reference.span] else []) := by
    rw [map_flatMap]
    exact flatMap_sublist_flatMap fun reference _ => plan.referencePart_spans reference region
  have closures : ((plan.tree.closures.zipIdx.flatMap fun entry =>
      editsOf (plan.closurePart source exportedNames entry) region).map Edit.span).Subperm
      (plan.pointsOf region ++ plan.tree.closures.zipIdx.flatMap ranges) := by
    rw [map_flatMap]
    refine (flatMap_sublist_flatMap fun entry _ =>
      plan.closurePart_spans source exportedNames entry region).subperm.trans ?_
    refine (List.Perm.trans (List.Perm.of_eq ?_) (flatMap_append_perm ..).symm).subperm
    congr 1
    funext entry
    simp only [ranges]
    split
    · rfl
    · rfl
  have marks : (plan.tree.marksOf source region).map Mark.span = plan.tree.rootReferences.flatMap (fun reference =>
        if plan.tree.regionAround reference.scope = region then [reference.span] else []) ++
      plan.tree.closures.zipIdx.flatMap ranges := by
    have numbered : plan.tree.closures.zipIdx.flatMap ranges = plan.tree.closures.flatMap fun closure =>
        if plan.tree.editRegion closure = region then (closure.ranges source).map Prod.fst else [] := by
      rw [← zipIdx_map_fst 0 plan.tree.closures,flatMap_map,zipIdx_map_fst]
    rw [numbered,Scoping.marksOf,map_append,map_flatMap,map_flatMap]
    congr 2
    · funext reference
      split <;> rfl
    funext closure
    split
    · rw [Closure.marks,map_map]
      rfl
    · rfl
  rw [editsOf_eq succeeds,map_append,marks]
  exact (references.subperm.append closures).trans (perm_append_comm_assoc ..).subperm

end

end Plan

namespace Scoping

variable {source : List Char} {tree : Scoping} {marks : List Mark} {region : Region}

lemma Sound.regionAround_root (sound : tree.Sound nests root) : tree.regionAround root = none := by
  cases region : tree.regionAround root with
  | none => rfl
  | some i =>
    obtain ⟨closure,found,-,above⟩ := sound.closure_of_region region
    have low : closure.scope ≤ root := le_of_mem_chain sound.parented above
    exact absurd ((sound.parent_lt_scope found).trans_le low) (Nat.not_lt_zero _)

lemma marksOf_sublist (source : List Char) (tree : Scoping) (marks : List Mark) (region : Region) :
    (tree.marksOf source region).Sublist (Finds.needed source ⟨tree.rootReferences,tree.closures,marks⟩) := by
  rw [Finds.needed,map_eq_flatMap]
  refine List.Sublist.append (flatMap_sublist_flatMap fun _ _ => ?_) (flatMap_sublist_flatMap fun _ _ => ?_)
  · split
    · exact List.Sublist.refl _
    · exact nil_sublist _
  · split
    · exact List.Sublist.refl _
    · exact nil_sublist _

namespace LaidOut

variable {file : String} {exportedNames : List String} {edits : List RegionEdit}
  (laidOut : tree.LaidOut source marks) (sound : tree.Sound False root)
include laidOut

lemma marksOf_apart (region : Region) : (tree.marksOf source region).Pairwise (Mark.Apart tree.chain) := by
  obtain ⟨high,layout⟩ := laidOut
  obtain ⟨chosen,perm,sublist⟩ := layout.backed
  have needed := (perm.pairwise_iff (R := Mark.Apart tree.chain) Mark.Apart.symm).1 (layout.apart.sublist sublist)
  exact needed.sublist (marksOf_sublist ..)

lemma not_clear_of_buries {inner : Closure} (succeeds : (tree.plan file).edits source exportedNames = .ok edits)
    (outerListed : outer ∈ tree.closures) (innerListed : inner ∈ tree.closures)
    (buries : tree.Buries outer inner) :
    ¬(editsOf edits none).Pairwise fun a b => a.span.Clear b.span := by
  intro clear
  obtain ⟨high,layout⟩ := laidOut
  obtain ⟨lifted,home,within,statement,exports,inside⟩ := buries
  obtain ⟨i,foundOuter⟩ := List.getElem?_of_mem outerListed
  obtain ⟨j,foundInner⟩ := List.getElem?_of_mem innerListed
  obtain ⟨range,taken,holds⟩ := (layout.covered outer outerListed lifted).taken
  obtain ⟨before,ranges⟩ := layout.headed inner innerListed statement exports
  -- the edit that takes out the literal
  obtain ⟨a,partOuter,rfl⟩ := exists_replacing succeeds foundOuter lifted taken
  -- the edit of what is before the exported literal
  obtain ⟨b,member',head⟩ : ∃ b ∈ editsInPlace source exportedNames inner,
      b.span = ⟨statement.start,inner.span.start⟩ := by
    obtain ⟨isDeclaration,context⟩ := exports
    unfold editsInPlace
    rw [context]
    cases isDeclaration <;> exact ⟨_,mem_cons_self,rfl⟩
  have partInner : b ∈ editsOf ((tree.plan file).closurePart source exportedNames (inner, j)) none := by
    rw [closurePart,if_neg (by simp [exports.stays]),editsOf_map,if_pos rfl]
    exact member'
  have apart : (outer, i) ≠ (inner, j) := by
    intro same
    rw [(Prod.mk.inj same).1,exports.stays] at lifted
    cases lifted
  have runs : ¬a.span.Clear b.span := by
    obtain ⟨isDeclaration,context⟩ := exports
    have upto : statement.holds ⟨statement.start,inner.span.start⟩ = true := by
      refine ranges (⟨statement.start,inner.span.start⟩, false) ?_
      rw [Closure.ranges,context]
      cases isDeclaration <;> exact mem_cons_self
    simp only [Span.holds,and_eq_true,decide_eq_true_eq] at holds inside upto
    rw [head]
    unfold Span.Clear
    dsimp only
    omega
  have numbered : ∀ {i closure}, tree.closure? i = some closure → (closure, i) ∈ tree.closures.zipIdx :=
    mk_mem_zipIdx_iff_getElem?.mpr
  change a ∈ editsOf _ (tree.homeRegion outer) at partOuter
  rw [home] at partOuter
  rw [editsOf_eq succeeds] at clear
  have closures := (pairwise_append.1 clear).2.1
  rcases pair_sublist_of_mem (numbered foundOuter) (numbered foundInner) apart with order | order
  · have pair := closures.sublist (pair_sublist_flatMap order partOuter partInner)
    rw [pairwise_pair] at pair
    exact runs pair
  · have pair := closures.sublist (pair_sublist_flatMap order partInner partOuter)
    rw [pairwise_pair] at pair
    exact runs pair.symm

include sound

lemma editedIn_of_mem (listed : mark ∈ tree.marksOf source region) :
    mark ∈ marks ∧ mark.EditedIn source tree region := by
  obtain ⟨high,layout⟩ := laidOut
  refine ⟨layout.backed.subset ((marksOf_sublist ..).subset listed),?_⟩
  rcases mem_append.1 listed with used | made
  · obtain ⟨reference,-,here⟩ := mem_flatMap.1 used
    split at here
    · rename_i same
      rw [mem_singleton.1 here]
      exact .inl same
    · exact absurd here not_mem_nil
  · obtain ⟨closure,known,here⟩ := mem_flatMap.1 made
    split at here
    · rename_i same
      obtain ⟨range,-,rfl⟩ := mem_marks.1 here
      unfold editRegion at same
      split at same
      · exact .inl same
      rename_i stays
      subst same
      rcases Closure.cases_of_stays (Bool.eq_false_iff.2 stays) with ⟨exported,statement,context⟩ |
        ⟨statement,isDeclaration,context⟩
      · refine .inl ?_
        simp only [layout.grounded closure known exported statement context]
        exact sound.regionAround_root
      · exact .inr ⟨rfl,closure,known,⟨statement,isDeclaration,context⟩,here⟩
    · exact absurd here not_mem_nil

lemma marked_of_point (listed : point ∈ (tree.plan file).pointsOf region) : (∃ offset, point = ⟨offset,offset⟩) ∧
      ∃ mark ∈ marks, mark.span = point ∧ mark.EditedIn source tree region := by
  obtain ⟨high,layout⟩ := laidOut
  obtain ⟨⟨closure,id⟩,numbered,here⟩ := mem_flatMap.1 listed
  have found : tree.closure? id = some closure := mk_mem_zipIdx_iff_getElem?.mp numbered
  split at here
  · rename_i same
    unfold points at here
    split at here
    · rename_i exported statement start isMutable context placed
      split at here
      · exact absurd here not_mem_nil
      rename_i away
      cases mem_singleton.1 here
      refine ⟨⟨start,rfl⟩,?_⟩
      have moved := (bound_at_point found context placed).resolve_left away
      obtain ⟨mark,marked,here,around,between⟩ :=
        (layout.offered closure (mem_of_getElem? found) start moved).resolve_left fun offered => not_mem_nil offered.1
      have lifted : closure.isLifted = true := by
        rw [Closure.isLifted,show closure.context = _ from context]
        rfl
      refine ⟨mark,marked,here,.inl ?_⟩
      rw [← sound.region_eq around between]
      simp only [editRegion,lifted,if_true] at same
      exact same
    · exact absurd here not_mem_nil
  · exact absurd here not_mem_nil

variable (succeeds : (tree.plan file).edits source exportedNames = .ok edits)
include succeeds

lemma marked_of_edit (member : edit ∈ editsOf edits region) :
    ∃ mark ∈ marks, mark.span = edit.span ∧ mark.EditedIn source tree region := by
  have listed := (spans_subperm succeeds region).subset (mem_map_of_mem member)
  rcases mem_append.1 listed with inserted | replaced
  · exact (laidOut.marked_of_point sound inserted).2
  · obtain ⟨mark,own,same⟩ := mem_map.1 replaced
    obtain ⟨marked,edited⟩ := laidOut.editedIn_of_mem sound own
    exact ⟨mark,marked,same,edited⟩

lemma fits_of_edit (member : edit ∈ editsOf edits region) : edit.span.fits source = true := by
  obtain ⟨mark,marked,same,-⟩ := laidOut.marked_of_edit sound succeeds member
  obtain ⟨_,layout⟩ := laidOut
  exact same ▸ (layout.within (.mark marked)).1

lemma takes_of_edit {id : ClosureIndex} {closure : Closure} (found : tree.closure? id = some closure)
    (member : edit ∈ editsOf edits (some id)) : closure.Takes edit.span := by
  obtain ⟨mark,marked,same,edited⟩ := laidOut.marked_of_edit sound succeeds member
  obtain ⟨_,layout⟩ := laidOut
  have region := edited.resolve_right fun inProgram => Option.some_ne_none _ inProgram.1
  obtain ⟨other,found',lifted,around⟩ := sound.closure_of_region region
  cases found.symm.trans found'
  rw [← same]
  exact layout.takes closure (mem_of_getElem? found) lifted (.mark marked) around

/-- If no default export is buried, no two edits of a region run into each other. -/
lemma edits_clear (unburied : region = none → ∀ outer ∈ tree.closures, ∀ inner ∈ tree.closures,
      ¬tree.Buries outer inner) :
    (editsOf edits region).Pairwise fun a b => a.span.Clear b.span := by
  have spans : ((tree.plan file).pointsOf region ++ (tree.marksOf source region).map Mark.span).Pairwise
      Span.Clear := by
    refine pairwise_append.2 ⟨?_,?_,?_⟩
    · refine pairwise_of_forall_mem_list fun a ha b hb => ?_
      obtain ⟨⟨here,rfl⟩,-⟩ := laidOut.marked_of_point sound ha
      obtain ⟨⟨there,rfl⟩,-⟩ := laidOut.marked_of_point sound hb
      exact Nat.le_total here there
    · refine pairwise_map.2 ((laidOut.marksOf_apart region).imp_of_mem fun {a b} ha hb apart => ?_)
      obtain ⟨markedA,editedA⟩ := laidOut.editedIn_of_mem sound ha
      obtain ⟨markedB,editedB⟩ := laidOut.editedIn_of_mem sound hb
      exact laidOut.clear_of_editedIn sound markedA markedB apart editedA editedB unburied
    · intro point inserted span replaced
      obtain ⟨⟨offset,rfl⟩,a,markedA,same,editedA⟩ := laidOut.marked_of_point sound inserted
      obtain ⟨b,own,rfl⟩ := mem_map.1 replaced
      obtain ⟨markedB,editedB⟩ := laidOut.editedIn_of_mem sound own
      by_cases equal : a = b
      · rw [← equal,same]
        exact .inl le_rfl
      have ⟨_,layout⟩ := laidOut
      have : Std.Symm (Mark.Apart tree.chain) := ⟨fun _ _ => Mark.Apart.symm⟩
      have apart := layout.apart.forall markedA markedB equal
      rw [← same]
      exact laidOut.clear_of_editedIn sound markedA markedB apart editedA editedB unburied
  obtain ⟨chosen,perm,sublist⟩ := spans_subperm succeeds region
  exact pairwise_map.1 ((perm.pairwise_iff (R := Span.Clear) Span.Clear.symm).1 (spans.sublist sublist))

end LaidOut
end Scoping

lemma Analysis.output_of_checks {analysis : Analysis} {source : List Char} {options : Options} {edits : List RegionEdit}
    (succeeds : (analysis.tree.plan options.filename).edits source analysis.exportedNames = .ok edits)
    (checks : ∀ region, ∃ sorted, Edit.check options.filename (editsOf edits region) = .ok sorted) :
    ∃ output, analysis.output source options = .ok output := by
  have checked : checkRegions options.filename analysis.tree edits = .ok
      ((none :: (List.range analysis.tree.closures.length).map some).map fun region =>
        (region, Edit.sort (editsOf edits region))) := by
    refine mapM_of_ok fun region _ => ?_
    obtain ⟨sorted,checked⟩ := checks region
    rw [checked,(Edit.check_eq_ok checked).1]
    rfl
  simp only [output,succeeds,checked,bind_ok,pure_eq_ok]
  exact ⟨_,rfl⟩

/-- In a program whose tree stands in its text, edits of one region run into each other only if a default
export is buried in a literal that is taken out of the program, and then they do. Otherwise the output
fails for no other reason than a tag without a call. The edits of a hoisted closure's region lie in the
text that goes into its factory, or, for a class, in decorators before it. -/
theorem edits_overlap_only_at_buried_exports (source : List Char) (selection : Selection)
    (program : Program) (options : Options) (fits : program.fits source = true) :
    let analysis := analyzeBound source selection program
    let buried := ∃ outer ∈ analysis.tree.closures, ∃ inner ∈ analysis.tree.closures,
      analysis.tree.Buries outer inner
    (∀ edits, (analysis.tree.plan options.filename).edits source analysis.exportedNames = .ok edits →
      (∀ region, (∃ sorted, Edit.check options.filename (editsOf edits region) = .ok sorted) ↔
        ¬(region = none ∧ buried)) ∧
      ((∃ output, analysis.output source options = .ok output) ↔ ¬buried) ∧
      ∀ id closure, analysis.tree.closure? id = some closure → ∀ edit ∈ editsOf edits (some id),
        closure.Takes edit.span) ∧
    (¬buried → FailsOnlyWith [.cyclicClosures] (analysis.output source options)) := by
  intro analysis buried
  let setting : Selecting := { source, selects := selection.selects }
  obtain ⟨marks, laidOut⟩ : ∃ marks, analysis.tree.LaidOut source marks := analyze_laidOut setting fits
  have sound : analysis.tree.Sound False Scoping.root := analyze_bindAll_sound setting program
  have checks : ∀ {edits},
      (analysis.tree.plan options.filename).edits source analysis.exportedNames = .ok edits → ∀ region,
        (∃ sorted, Edit.check options.filename (editsOf edits region) = .ok sorted) ↔
          ¬(region = none ∧ buried) := by
    intro edits succeeds region
    have upright : ∀ edit ∈ editsOf edits region, edit.start ≤ edit.stop := fun edit member =>
      (Span.fits_iff.mp (laidOut.fits_of_edit sound succeeds member)).1
    rw [Edit.check_ok_iff upright]
    constructor
    · rintro clear ⟨rfl, outer, outerListed, inner, innerListed, buries⟩
      exact laidOut.not_clear_of_buries succeeds outerListed innerListed buries clear
    · intro unburied
      exact laidOut.edits_clear sound succeeds fun none outer outerListed inner innerListed buries =>
        unburied ⟨none, outer, outerListed, inner, innerListed, buries⟩
  refine ⟨fun edits succeeds => ⟨checks succeeds, ⟨?_, ?_⟩, ?_⟩, ?_⟩
  · rintro ⟨output, compiled⟩ there
    obtain ⟨same, regions, succeeds', checked⟩ := Analysis.edits_of_output compiled
    cases succeeds.symm.trans succeeds'
    exact (checks succeeds none).mp ⟨_, check_sortedEdits checked nofun⟩ ⟨rfl, there⟩
  · exact fun unburied => Analysis.output_of_checks succeeds fun region =>
      (checks succeeds region).mpr fun there => unburied there.2
  · exact fun id closure found edit member => laidOut.takes_of_edit sound succeeds found member
  · intro unburied
    have calls : ∀ {id closure}, analysis.tree.closure? id = some closure →
        (analysis.tree.plan options.filename).Calls id closure := fun found =>
      Plan.calls_of_bound sound found (Scoping.bound_bindAll found)
    cases made : (analysis.tree.plan options.filename).edits source analysis.exportedNames with
    | error fault =>
      refine .bind (Plan.edits_fails calls source analysis.exportedNames) fun edits succeeds => ?_
      cases made.symm.trans succeeds
    | ok edits =>
      exact .of_exists (Analysis.output_of_checks made fun region =>
        (checks made region).mpr fun there => unburied there.2)

def calledEarlyText : List Char := "const h = () => { go(); function go() {} };".toList

/-- The tree of `calledEarlyText`. The binding of `go` moves up in the arrow function. -/
def calledEarly : Program where
  span := ⟨0,43⟩
  body := [.variableDecl .const [.slot [] (.bind ⟨"h",⟨6,7⟩⟩) [.arrow (.mk { span := ⟨10,42⟩, paramsStart := 10 } []
      [.expression (.node .call ⟨18,22⟩ [.name ⟨"go",⟨18,20⟩⟩]) ⟨18,23⟩,
       .function (.mk { span := ⟨24,40⟩, name := some ⟨"go",⟨33,35⟩⟩, paramsStart := 35 } [] [])])]]
    ⟨0,43⟩]

theorem calledEarly_edits_lie_apart :
    let analysis := analyzeBound calledEarlyText .all calledEarly
    calledEarly.fits calledEarlyText = true ∧ ∃ edits,
      (analysis.tree.plan "").edits calledEarlyText analysis.exportedNames = .ok edits ∧
      (editsOf edits (some 0)).map Edit.span = [⟨18, 18⟩, ⟨24, 40⟩] ∧
      (∃ sorted, Edit.check "" (editsOf edits (some 0)) = .ok sorted) ∧
      (∃ output, analysis.output calledEarlyText {} = .ok output) ∧
      ∃ closure, analysis.tree.closure? 0 = some closure ∧ closure.slice = ⟨10, 42⟩ ∧
        ∀ edit ∈ editsOf edits (some 0), closure.Takes edit.span := by
  intro analysis
  have fits : calledEarly.fits calledEarlyText = true := by decide +kernel
  have made : ((analysis.tree.plan "").edits calledEarlyText analysis.exportedNames).toOption.map
      (fun edits => (editsOf edits (some 0)).map Edit.span) = some [⟨18, 18⟩, ⟨24, 40⟩] := by decide +kernel
  have arrow : (analysis.tree.closure? 0).map Closure.slice = some ⟨10, 42⟩ := by decide +kernel
  have plain : ∀ closure ∈ analysis.tree.closures, closure.context.isLifted = true := by decide +kernel
  have unburied : ¬∃ outer ∈ analysis.tree.closures, ∃ inner ∈ analysis.tree.closures,
      analysis.tree.Buries outer inner := by
    rintro ⟨outer, -, inner, listed, -, -, -, statement, exports, -⟩
    cases (plain inner listed).symm.trans exports.stays
  obtain ⟨whole, -⟩ := edits_overlap_only_at_buried_exports calledEarlyText .all calledEarly {} fits
  cases succeeds : (analysis.tree.plan "").edits calledEarlyText analysis.exportedNames with
  | error fault => simp [succeeds, Except.toOption] at made
  | ok edits =>
    obtain ⟨checks, compiles, takes⟩ := whole edits succeeds
    obtain ⟨closure, found, slice⟩ := Option.map_eq_some_iff.mp arrow
    refine ⟨fits, edits, rfl, ?_, (checks (some 0)).mpr (by simp), compiles.mpr unburied, closure, found, slice,
      takes 0 closure found⟩
    simpa [succeeds, Except.toOption] using made

def buriedExportText : List Char := "const h = () => { export default function g() {} };".toList

def buriedExport : Program where
  span := ⟨0,51⟩
  body := [.variableDecl .const [.slot [] (.bind ⟨"h",⟨6,7⟩⟩) [.arrow (.mk { span := ⟨10,50⟩, paramsStart := 10 } []
      [.exportDefault (.function (.mk { span := ⟨33,48⟩, name := some ⟨"g",⟨42,43⟩⟩, paramsStart := 43 } [] []))
        ⟨18,48⟩])]]
    ⟨0,51⟩]

def decoratedExportText : List Char := "global { @(() => 1) export class A {} }".toList

/-- The tree of `decoratedExportText`. The decorator belongs to the class and stands before it. -/
def decoratedExport : Program where
  span := ⟨0,39⟩
  body := [.ambient [.exportDeclaration (.classDecl (.mk { span := ⟨27,37⟩, name := some ⟨"A",⟨33,34⟩⟩ }
      [.node .group ⟨10,19⟩ [.arrow (.mk { span := ⟨11,18⟩, paramsStart := 11 } []
        [.expression (.atom ⟨17,18⟩) ⟨17,18⟩])]] [] []))
    ⟨20,37⟩] ⟨0,39⟩]

instance (a b : Span) : Decidable (a.Clear b) := inferInstanceAs (Decidable (_ ∨ _))

/-- Edits can run into each other: those of a default export in an arrow function run into the edit that
takes out the function, and there is no output. Edits can be outside the text that they are made to: the
decorator before `export` is edited in the region of the class. -/
theorem edits_clash_and_stray :
    (let analysis := analyzeBound buriedExportText .all buriedExport
     buriedExport.fits buriedExportText = true ∧ ∃ edits,
       (analysis.tree.plan "").edits buriedExportText analysis.exportedNames = .ok edits ∧
       (∀ sorted, Edit.check "" (editsOf edits none) ≠ .ok sorted) ∧
       ∀ output, analysis.output buriedExportText {} ≠ .ok output) ∧
    let analysis := analyzeBound decoratedExportText .all decoratedExport
    decoratedExport.fits decoratedExportText = true ∧ ∃ edits closure,
      (analysis.tree.plan "").edits decoratedExportText analysis.exportedNames = .ok edits ∧
      analysis.tree.closure? 1 = some closure ∧
      ∃ edit ∈ editsOf edits (some 1), closure.slice.holds edit.span = false := by
  refine ⟨?_, ?_⟩
  · intro analysis
    have made : ((analysis.tree.plan "").edits buriedExportText analysis.exportedNames).toOption.map
        (fun edits => decide ((editsOf edits none).Pairwise fun a b => a.span.Clear b.span)) =
        some false := by decide +kernel
    cases succeeds : (analysis.tree.plan "").edits buriedExportText analysis.exportedNames with
    | error fault => simp [succeeds, Except.toOption] at made
    | ok edits =>
      have clashes : ∀ sorted, Edit.check "" (editsOf edits none) ≠ .ok sorted := by
        intro sorted checked
        simp [succeeds, Except.toOption, Edit.clear_of_check checked] at made
      refine ⟨by decide +kernel, edits, rfl, clashes, fun output compiled => ?_⟩
      obtain ⟨_, regions, succeeds', checked⟩ := Analysis.edits_of_output compiled
      cases succeeds.symm.trans succeeds'
      exact clashes _ (check_sortedEdits checked (by simp))
  · intro analysis
    have made : ((analysis.tree.plan "").edits decoratedExportText analysis.exportedNames).toOption.map
        (fun edits => (editsOf edits (some 1)).any fun edit => !(Span.mk 27 37).holds edit.span) =
        some true := by decide +kernel
    have slice : (analysis.tree.closure? 1).map Closure.slice = some ⟨27, 37⟩ := by decide +kernel
    obtain ⟨closure, found, slice⟩ := Option.map_eq_some_iff.mp slice
    cases succeeds : (analysis.tree.plan "").edits decoratedExportText analysis.exportedNames with
    | error fault => simp [succeeds, Except.toOption] at made
    | ok edits =>
      rw [succeeds] at made
      obtain ⟨edit, member, strays⟩ := List.any_eq_true.mp (Option.some.inj made)
      refine ⟨by decide +kernel, edits, closure, rfl, found, edit, member, ?_⟩
      rw [slice]
      exact Bool.not_eq_true' _ ▸ strays

end Resumable
