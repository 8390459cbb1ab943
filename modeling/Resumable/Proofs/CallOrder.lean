import Resumable.Compile
import Resumable.Proofs.EditOrder
import Resumable.Proofs.LazyCaptures
import Mathlib.Data.List.Flatten

/-! The order of calls. In the sorted edits of a region, the edits that carry calls of factories stand
in the order of their call sites. So a declaration that is passed by its name has been bound before
the call that passes it. -/
namespace Resumable
open List Scoping Bool ClosureForm

open Script (Span)
variable {α β : Type} {reference : Reference} {first second : Closure} {analysis : Analysis}
  {options : Options} {values : List α} {exported : Bool} {statement : Span}

/-! ### Where declarations are placed -/

def Placement.onlyUse : Placement → Option Span
  | .inline only => some only
  | .bound _ _ => none

lemma lookup_filterMap_zipIdx (give : α → Nat → Option β) (values : List α) (first id : Nat) :
    lookup id ((values.zipIdx first).filterMap fun entry =>
      (give entry.1 entry.2).map fun given => (entry.2, given)) =
      if first ≤ id then values[id - first]?.bind fun value => give value id else none := by
  induction values generalizing first with
  | nil => simp
  | cons value rest ih =>
    rw [zipIdx_cons,filterMap_cons]
    rcases Nat.lt_trichotomy first id with before | rfl | after
    · have step : id - first = (id - (first + 1)) + 1 := by omega
      have apart : (id == first) = false := by simpa using Nat.ne_of_gt before
      have found := ih (first + 1)
      rw [if_pos (by omega : first + 1 ≤ id)] at found
      rw [if_pos before.le,step,getElem?_cons_succ]
      cases given : give value first with
      | none => simpa [given] using found
      | some result => simpa [given,lookup_cons,apart] using found
    · cases given : give value first with
      | none =>
        have found := ih (first + 1)
        rw [if_neg (by omega : ¬first + 1 ≤ first)] at found
        rw [if_pos le_rfl,Nat.sub_self]
        simp only [given,Option.map_none,getElem?_cons_zero,Option.bind_some]
        exact found
      | some result => simp [given]
    · have apart : (id == first) = false := by simpa using after.ne
      have found := ih (first + 1)
      rw [if_neg (by omega : ¬first + 1 ≤ id)] at found
      rw [if_neg after.not_ge]
      cases given : give value first with
      | none => simpa [given] using found
      | some result => simpa [given,lookup_cons,apart] using found

namespace Placements

variable {placements : Placements}

lemma of?_replace (id : ClosureIndex) (placement : Placement) (other : ClosureIndex) :
    (placements.replace id placement).of? other =
      if other = id then (placements.of? id).map fun _ => placement else placements.of? other := by
  simp only [of?,replace,beq_iff_eq]
  induction placements with
  | nil => simp
  | cons entry rest ih =>
    obtain ⟨key,value⟩ := entry
    simp only [map_cons,lookup_cons]
    by_cases same : other = key
    · subst same
      by_cases here : other = id <;> simp [here]
    have miss : (other == key) = false := beq_eq_false_iff_ne.2 same
    by_cases here : key = id
    · subst here
      simp [lookup_cons,miss,ih,same]
    · have missId : (id == key) = false := beq_eq_false_iff_ne.2 (Ne.symm here)
      simp [here,lookup_cons,miss,ih,missId]

end Placements

def Usage.place? (usage : Usage) (closure : Closure) (id : ClosureIndex) : Option Placement :=
  match closure.context with
  | .declaration false _ statement => some (usage.initialPlacement id closure statement)
  | _ => none

namespace Scoping

variable {tree : Scoping}

lemma of?_initialPlacements (tree : Scoping) (usage : Usage) (id : ClosureIndex) :
    (tree.initialPlacements usage).of? id = (tree.closure? id).bind fun closure => usage.place? closure id := by
  have form : tree.initialPlacements usage = (tree.closures.zipIdx).filterMap fun entry =>
      (usage.place? entry.1 entry.2).map fun given => (entry.2, given) := by
    unfold initialPlacements
    congr 1
    funext entry
    simp only [Usage.place?]
    cases entry.1.context with
    | declaration topLevel => cases topLevel <;> rfl
    | expression | objectMethod | classMethod | defaultExport => rfl
  rw [Placements.of?,form,lookup_filterMap_zipIdx]
  simp [closure?]

section
variable (usage : Usage) (placements : Placements) (id : ClosureIndex) (closure : Closure)
include usage placements id closure

lemma raise_cases : tree.raise usage placements id closure = placements ∨
    ∃ start isMutable point, placements.of? id = some (.bound start isMutable) ∧
    (closure.hoistPoints.filter fun point =>
    point ≤ tree.earliestNeed usage placements id closure start).max? = some point ∧ point < start ∧
    tree.raise usage placements id closure = placements.replace id (.bound point isMutable) := by
  simp only [raise]
  split
  · exact .inl rfl
  split
  · rename_i start isMutable placed
    split
    · rename_i point highest
      split
      · rename_i before
        exact .inr ⟨start,isMutable,point,placed,highest,before,rfl⟩
      · exact .inl rfl
    · exact .inl rfl
  · exact .inl rfl

lemma onlyUse_raise (other : ClosureIndex) :
    ((tree.raise usage placements id closure).of? other).map Placement.onlyUse =
    (placements.of? other).map Placement.onlyUse := by
  rcases raise_cases usage placements id closure with same | ⟨start,isMutable,point,placed,_,_,moved⟩
  · rw [same]
  rw [moved,Placements.of?_replace]
  split
  · rename_i same
    rw [same,placed]
    rfl
  · rfl

end

lemma placements_induction {usage : Usage} (holds : Placements → Prop) (start : holds (tree.initialPlacements usage))
    (step : ∀ {placements id closure}, tree.closure? id = some closure → holds placements →
      holds (tree.raise usage placements id closure)) : holds (tree.placements usage) := by
  have round : ∀ (entries : List (Closure × ClosureIndex)), entries ⊆ tree.closures.zipIdx →
      ∀ placements, holds placements → holds (entries.foldl
        (fun placements (closure, id) => tree.raise usage placements id closure) placements) := by
    intro entries
    induction entries with
    | nil => exact fun _ _ old => old
    | cons entry rest ih =>
      intro known placements old
      have found := mk_mem_zipIdx_iff_getElem?.1 (known mem_cons_self)
      exact ih (fun _ listed => known (mem_cons_of_mem _ listed)) _ (step found old)
  unfold placements
  generalize tree.moveBound = fuel
  generalize tree.initialPlacements usage = first at start
  induction fuel generalizing first with
  | zero => exact start
  | succ fuel ih =>
    simp only [settle]
    split
    · exact start
    · exact ih _ (round _ (Subset.refl _) first start)

lemma onlyUse_placements (tree : Scoping) (usage : Usage) (id : ClosureIndex) :
    ((tree.placements usage).of? id).map Placement.onlyUse =
      ((tree.initialPlacements usage).of? id).map Placement.onlyUse :=
  placements_induction (fun placements => (placements.of? id).map Placement.onlyUse =
    ((tree.initialPlacements usage).of? id).map Placement.onlyUse) rfl
    fun _ old => (onlyUse_raise usage _ _ _ id).trans old

variable {id : ClosureIndex}

lemma mem_usesOf : reference ∈ tree.usage.usesOf id ↔ reference ∈ tree.rootReferences ∧
      tree.liftedDeclaration? reference = some id ∧
      tree.regionAround reference.scope = tree.homeRegionOf id := by
  simp only [Usage.usesOf,usage,mem_filterMap]
  constructor
  · rintro ⟨⟨i,other⟩,⟨source,listed, entry⟩,picked⟩
    split at entry
    · rename_i named found
      split at entry
      · rename_i region
        cases entry
        split at picked
        · rename_i same
          cases picked
          cases beq_iff_eq.1 same
          exact ⟨listed,found,beq_iff_eq.1 region⟩
        · cases picked
      · cases entry
    · cases entry
  · rintro ⟨listed,found,region⟩
    exact ⟨(id, reference),⟨reference,listed,by simp [found,region]⟩,by simp⟩

/-- A hoisted declaration is bound somewhere, or is made where it is used: at its only reference,
which nothing else captures. Any other hoisted closure has no place. -/
lemma placement_cases (tree : Scoping) {closure : Closure} (found : tree.closure? id = some closure) :
    (∃ exported statement start isMutable, closure.context = .declaration false exported statement ∧
      (tree.placements tree.usage).of? id = some (.bound start isMutable)) ∨
    (∃ exported statement reference, closure.context = .declaration false exported statement ∧
      (tree.placements tree.usage).of? id = some (.inline reference.span) ∧
      tree.usage.usesOf id = [reference] ∧ Usage.takesCall reference.position = true ∧
      tree.usage.capturersOf id = []) ∨
    ((∀ exported statement, closure.context ≠ .declaration false exported statement) ∧
      (tree.placements tree.usage).of? id = none) := by
  have kept := onlyUse_placements tree tree.usage id
  rw [of?_initialPlacements,found,Option.bind_some,Usage.place?] at kept
  split at kept
  · rename_i exported statement context
    obtain ⟨placement,placed,use⟩ := Option.map_eq_some_iff.1 (kept.trans (Option.map_some ..))
    cases placement with
    | bound start isMutable => exact .inl ⟨exported,statement,start,isMutable,context,placed⟩
    | inline only =>
      refine .inr (.inl ?_)
      simp only [Usage.initialPlacement] at use
      split at use
      · rename_i reference uses
        split at use
        · rename_i alone
          simp only [and_eq_true,List.isEmpty_iff] at alone
          simp only [Placement.onlyUse,Option.some.injEq] at use
          exact ⟨exported,statement,reference,context,use ▸ placed,uses,alone.2,alone.1.1.1⟩
        · cases use
      · cases use
  · rename_i other
    exact .inr (.inr ⟨other,Option.map_eq_none_iff.1 kept⟩)

end Scoping

/-! ### The edits that carry calls -/

def bindingText (closure : Closure) (isMutable : Bool) (call : String) : String :=
  (if isMutable then "let" else "const") ++ " " ++ closure.name.getD closure.exportName ++ " = " ++ call ++ ";"

def Position.spell? (position : Position) (name call : String) : Option String :=
  match position with
  | .plain => some call
  | .constructed => some ("(" ++ call ++ ")")
  | .shorthand => some (name ++ ": " ++ call)
  | .assigned | .tag => none

inductive Plan.Carries (plan : Plan) (id : ClosureIndex) (closure : Closure) : Edit → Prop where
  | stays {exported : Bool} {statement : Span} {isMutable : Bool} {call : String}
      (context : closure.context = .declaration false exported statement)
      (placed : plan.placement? id = some (.bound statement.start isMutable))
      (called : plan.callOf id closure = .ok call) :
    Carries plan id closure (Edit.ofSpan statement (bindingText closure isMutable call))
  | moved {exported : Bool} {statement : Span} {start : Nat} {isMutable : Bool} {call : String}
      (context : closure.context = .declaration false exported statement)
      (placed : plan.placement? id = some (.bound start isMutable))
      (away : start ≠ statement.start) (called : plan.callOf id closure = .ok call) :
    Carries plan id closure (Edit.insert start (bindingText closure isMutable call ++ " "))
  | inlined {reference : Reference} {name call text : String}
      (placed : plan.placement? id = some (.inline reference.span))
      (used : reference ∈ plan.tree.usage.usesOf id)
      (mention : reference.mention = .identifier name)
      (called : plan.callOf id closure = .ok call)
      (spelled : reference.position.spell? name call = some text) :
    Carries plan id closure (Edit.ofSpan reference.span text)
  | expression {call : String} (context : closure.context = .expression) (called : plan.callOf id closure = .ok call) :
    Carries plan id closure (Edit.ofSpan closure.span call)
  | objectMethod {member key : Span} {computed : Bool} {call : String}
      (context : closure.context = .objectMethod member key computed)
      (called : plan.callOf id closure = .ok call) :
    Carries plan id closure ⟨key.stop,member.stop,(if computed then "]" else "") ++ ": " ++ call ++ ""⟩
  | classMethod {member key : Span} {computed isStatic : Bool} {call : String}
      (context : closure.context = .classMethod member key computed isStatic)
      (called : plan.callOf id closure = .ok call) :
    Carries plan id closure ⟨key.stop,member.stop,(if computed then "]" else "") ++ " = " ++ call ++ ";"⟩

lemma pair_sublist_flatMap (order : [a,b].Sublist values) (hx : x ∈ give a) (hy : y ∈ give b) :
    [x,y].Sublist (values.flatMap give) := by
  have given : (give a ++ give b).Sublist (values.flatMap give) := by simpa using order.flatMap give
  exact ((singleton_sublist.2 hx).append (singleton_sublist.2 hy)).trans given

lemma pair_sublist_zipIdx (before : i < j) (hi : values[i]? = some a) (hj : values[j]? = some b) :
    [(a, i),(b, j)].Sublist values.zipIdx := by
  have memberI : (a, i) ∈ values.zipIdx := mk_mem_zipIdx_iff_getElem?.mpr hi
  have memberJ : (b, j) ∈ values.zipIdx := mk_mem_zipIdx_iff_getElem?.mpr hj
  have apart : (a, i) ≠ (b, j) := fun same => before.ne (Prod.mk.inj same).2
  refine (pair_sublist_of_mem memberI memberJ apart).resolve_right fun reversed => ?_
  have numbers := reversed.map Prod.snd
  rw [zipIdx_map_snd] at numbers
  have increasing : [j,i].Pairwise (· < ·) := Pairwise.sublist numbers pairwise_lt_range'
  simp only [pairwise_pair] at increasing
  omega

namespace Plan

variable {tree : Scoping} {nests : Prop} {file : String} {id : ClosureIndex} {closure : Closure}
  {edit : Edit} {plan : Plan} {source : List Char} {exportedNames : List String}

lemma callSite_of_inline (placed : plan.placement? id = some (.inline only)) (closure : Closure) :
    callSite plan.placements id closure = ⟨only.start,1,id⟩ := by
  have placed : plan.placements.of? id = some (.inline only) := placed
  unfold callSite
  rw [placed]
  cases closure.context <;> rfl

lemma callSite_closure (placements : Placements) (id : ClosureIndex) (closure : Closure) :
    (callSite placements id closure).closure = id := by
  unfold callSite
  split <;> rfl

/-- Where the edit that carries a call stands. It covers the offset of the call site, or is inserted
there if its declaration has moved up. -/
lemma Carries.at_site (carries : (tree.plan file).Carries id closure edit)
    (sound : tree.Sound True root) (found : tree.closure? id = some closure) :
    let site := callSite (tree.plan file).placements id closure
    edit.start ≤ site.offset ∧ ((site.rank = 1 ∧ site.offset < edit.stop) ∨
        (site.rank = 0 ∧ edit.start = site.offset ∧ edit.stop = site.offset)) := by
  obtain ⟨admits,visible⟩ := sound.placed trivial found
  have unplaced : (∀ exported statement, closure.context ≠ .declaration false exported statement) →
      (tree.plan file).placements.of? id = none := by
    intro other
    rcases tree.placement_cases found with ⟨exported,statement,_,_,context,_⟩ |
      ⟨exported,statement,_,context,_⟩ | ⟨_,none⟩
    · exact absurd context (other exported statement)
    · exact absurd context (other exported statement)
    · exact none
  simp only [Script.Span.holdsText,decide_eq_true_eq] at visible
  cases carries with
  | @stays exported statement isMutable call context placed called =>
    rw [context,ClosureForm.admits,beq_iff_eq] at admits
    have placed : (tree.plan file).placements.of? id = some (.bound statement.start isMutable) := placed
    simp only [callSite,context,placed,Edit.ofSpan]
    subst admits
    simpa using visible
  | @moved exported statement start isMutable call context placed away called =>
    have placed : (tree.plan file).placements.of? id = some (.bound start isMutable) := placed
    simp [callSite,context,placed,away,Edit.insert]
  | @inlined reference name call text placed used mention called spelled =>
    have site := callSite_of_inline placed closure
    obtain ⟨listed,_⟩ := mem_usesOf.1 used
    obtain ⟨top,topFound,member⟩ := mem_referencesIn.1 listed
    have shown := sound.visible trivial topFound member mention
    simp only [Script.Span.holdsText,decide_eq_true_eq] at shown
    rw [site]
    simpa [Edit.ofSpan] using shown
  | expression context called =>
    have none := unplaced (by simp [context])
    simp only [callSite,context,none,Edit.ofSpan]
    simpa using visible
  | objectMethod context called | classMethod context called =>
    have none := unplaced (by simp [context])
    simp only [context,ClosureForm.admits,Bool.and_eq_true,decide_eq_true_eq] at admits
    simp only [callSite,context,none]
    exact ⟨admits.1,.inl ⟨trivial,visible.trans_le admits.2⟩⟩

def referencePart (plan : Plan) (reference : Reference) : List RegionEdit :=
  (((plan.useEdit reference).toOption.getD none).map (⟨plan.tree.regionAround reference.scope,·⟩)).toList

def closurePart (plan : Plan) (source : List Char) (exportedNames : List String)
    (entry : Closure × ClosureIndex) : List RegionEdit :=
  if entry.1.isLifted then
    ((plan.siteEdits entry.2 entry.1).toOption.getD []).map (⟨plan.tree.homeRegion entry.1,·⟩)
  else (editsInPlace source exportedNames entry.1).map (⟨none,·⟩)

lemma referenceEdits_eq {edits : List RegionEdit} (succeeds : plan.referenceEdits = .ok edits) :
    edits = plan.tree.rootReferences.flatMap plan.referencePart := by
  obtain ⟨results,resultsOk,⟨⟩⟩ := bind_eq_ok.1 succeeds
  rw [(mapM_eq_ok resultsOk none).1,filterMap_map,filterMap_eq_flatMap_toList]
  congr 1
  funext reference
  simp only [Function.comp_apply,id_eq,referencePart]
  cases plan.useEdit reference <;> rfl

lemma closureEdits_eq {edits : List RegionEdit} (succeeds : plan.closureEdits source exportedNames = .ok edits) :
    edits = plan.tree.closures.zipIdx.flatMap (plan.closurePart source exportedNames) := by
  obtain ⟨results,resultsOk,⟨⟩⟩ := bind_eq_ok.1 succeeds
  rw [(mapM_eq_ok resultsOk []).1,flatMap_def]
  congr 2
  funext entry
  obtain ⟨closure,id⟩ := entry
  simp only [closurePart]
  split
  · cases plan.siteEdits id closure <;> rfl
  · rfl

lemma editsOf_eq {edits : List RegionEdit} (succeeds : plan.edits source exportedNames = .ok edits) (region : Region) :
    editsOf edits region =
      plan.tree.rootReferences.flatMap (fun reference => editsOf (plan.referencePart reference) region) ++
      plan.tree.closures.zipIdx.flatMap
        (fun entry => editsOf (plan.closurePart source exportedNames entry) region) := by
  obtain ⟨references,referencesOk,succeeds⟩ := bind_eq_ok.1 succeeds
  obtain ⟨closures,closuresOk,⟨⟩⟩ := bind_eq_ok.1 succeeds
  rw [referenceEdits_eq referencesOk,closureEdits_eq closuresOk]
  simp only [editsOf,filterMap_append,filterMap_flatMap]

lemma Carries.written (carries : plan.Carries id closure edit) (found : plan.tree.closure? id = some closure) :
    (∃ reference ∈ plan.tree.rootReferences, plan.tree.liftedDeclaration? reference = some id ∧
      plan.tree.regionAround reference.scope = plan.tree.homeRegion closure ∧
      plan.useEdit reference = .ok (some edit) ∧
      (callSite plan.placements id closure).rank = 1) ∨
    ∃ edits, plan.siteEdits id closure = .ok edits ∧ edit ∈ edits := by
  cases carries with
  | stays context placed called =>
    refine .inr ⟨[_],?_,mem_singleton.2 rfl⟩
    simp [siteEdits,context,declarationEdits,placed,called,bindingText]
  | @moved exported statement start isMutable call context placed away called =>
    have made : plan.siteEdits id closure =
        .ok [Edit.insert start (bindingText closure isMutable call ++ " "),Edit.ofSpan statement ""] := by
      simp [siteEdits,context,declarationEdits,placed,called,away,bindingText]
    exact .inr ⟨_,made,mem_cons_self⟩
  | @inlined reference name call text placed used mention called spelled =>
    obtain ⟨listed,names,region⟩ := mem_usesOf.1 used
    have home : plan.tree.regionAround reference.scope = plan.tree.homeRegion closure := by
      rw [region,homeRegionOf,found,Option.bind_some]
    refine .inl ⟨reference,listed,names,home,?_,by rw [callSite_of_inline placed]⟩
    have value : plan.replacement? id closure reference name = .ok (some call) := by
      simp [replacement?,home,placed,called,Except.map]
    simp only [useEdit,mention,variableEdit,names,found,value,bind_ok]
    cases position : reference.position <;> simp only [position,Position.spell?] at spelled
    all_goals cases spelled
    all_goals rfl
  | expression context called =>
    refine .inr ⟨[_],?_,mem_singleton.2 rfl⟩
    simp [siteEdits,context,called]
  | @objectMethod member key computed call context called =>
    have made : plan.siteEdits id closure = .ok (methodEdits member key computed "" ": " call "") := by
      simp only [siteEdits,context,called,bind_ok,pure_eq_ok]
    exact .inr ⟨_,made,mem_cons_of_mem _ (mem_singleton.2 rfl)⟩
  | @classMethod member key computed isStatic call context called =>
    have made : plan.siteEdits id closure = .ok (methodEdits member key computed
        (if isStatic then "static " else "") " = " call ";") := by
      simp only [siteEdits,context,called,bind_ok,pure_eq_ok]
    exact .inr ⟨_,made,mem_cons_of_mem _ (mem_singleton.2 rfl)⟩

lemma mem_editsOf {region : Region} {edits : List Edit} (member : edit ∈ edits) :
    edit ∈ editsOf (edits.map (⟨region,·⟩)) region := by
  simpa [editsOf,filterMap_map] using member

section
variable {plan : Plan} {source : List Char} {exportedNames : List String} {edits : List RegionEdit}

lemma mem_closurePart (source : List Char) (exportedNames : List String)
    (lifted : closure.isLifted = true) (made : plan.siteEdits id closure = .ok found)
    (member : edit ∈ found) :
    edit ∈ editsOf (plan.closurePart source exportedNames (closure, id)) (plan.tree.homeRegion closure) := by
  simp only [closurePart,lifted,if_true,made,Except.toOption,Option.getD_some]
  exact mem_editsOf member

lemma mem_referencePart (made : plan.useEdit reference = .ok (some edit)) :
    edit ∈ editsOf (plan.referencePart reference) (plan.tree.regionAround reference.scope) := by
  simp [referencePart,made,Except.toOption,editsOf]

variable {i j : ClosureIndex} {a b : Edit}

section
variable (succeeds : plan.edits source exportedNames = .ok edits)
include succeeds

section
variable (foundFirst : plan.tree.closure? i = some first) (liftedFirst : first.isLifted = true)
  (foundSecond : plan.tree.closure? j = some second) (liftedSecond : second.isLifted = true)
  (home : plan.tree.homeRegion first = plan.tree.homeRegion second)
include foundFirst liftedFirst foundSecond liftedSecond home

lemma pair_sublist_of_siteEdits (before : i < j) (madeFirst : plan.siteEdits i first = .ok as) (memberFirst : a ∈ as)
    (madeSecond : plan.siteEdits j second = .ok bs) (memberSecond : b ∈ bs) :
    [a,b].Sublist (editsOf edits (plan.tree.homeRegion first)) := by
  rw [editsOf_eq succeeds]
  have partFirst := mem_closurePart source exportedNames liftedFirst madeFirst memberFirst
  have partSecond := mem_closurePart source exportedNames liftedSecond madeSecond memberSecond
  rw [← home] at partSecond
  exact (pair_sublist_flatMap (pair_sublist_zipIdx before foundFirst foundSecond) partFirst
    partSecond).trans (sublist_append_right _ _)

lemma pair_sublist_of_carries (apart : i ≠ j)
    (carriesFirst : plan.Carries i first a) (carriesSecond : plan.Carries j second b) :
    [a,b].Sublist (editsOf edits (plan.tree.homeRegion first)) ∨
    [b,a].Sublist (editsOf edits (plan.tree.homeRegion first)) := by
  have parts := editsOf_eq succeeds (plan.tree.homeRegion first)
  have numbered : ∀ {i closure}, plan.tree.closure? i = some closure →
      (closure, i) ∈ plan.tree.closures.zipIdx := mk_mem_zipIdx_iff_getElem?.mpr
  rcases carriesFirst.written foundFirst with
    ⟨use,listed,names,region,made,_⟩ | ⟨as,made,member⟩ <;>
  rcases carriesSecond.written foundSecond with
    ⟨use',listed',names',region',made',_⟩ | ⟨bs,made',member'⟩
  · have part := mem_referencePart made
    have part' := mem_referencePart made'
    rw [region] at part
    rw [region',← home] at part'
    have different : use ≠ use' := by
      rintro rfl
      exact apart (Option.some.inj (names.symm.trans names'))
    rw [parts]
    rcases pair_sublist_of_mem listed listed' different with order | order
    · exact .inl ((pair_sublist_flatMap order part part').trans (sublist_append_left _ _))
    · exact .inr ((pair_sublist_flatMap order part' part).trans (sublist_append_left _ _))
  · have part := mem_referencePart made
    have part' := mem_closurePart source exportedNames liftedSecond made' member'
    rw [region] at part
    rw [← home] at part'
    rw [parts]
    exact .inl ((singleton_sublist.2 (mem_flatMap.2 ⟨use,listed,part⟩)).append
      (singleton_sublist.2 (mem_flatMap.2 ⟨_,numbered foundSecond,part'⟩)))
  · have part := mem_closurePart source exportedNames liftedFirst made member
    have part' := mem_referencePart made'
    rw [region',← home] at part'
    rw [parts]
    exact .inr ((singleton_sublist.2 (mem_flatMap.2 ⟨use',listed',part'⟩)).append
      (singleton_sublist.2 (mem_flatMap.2 ⟨_,numbered foundFirst,part⟩)))
  · rcases Nat.lt_or_gt_of_ne apart with before | after
    · exact .inl (pair_sublist_of_siteEdits succeeds foundFirst liftedFirst foundSecond
        liftedSecond home before made member made' member')
    · rw [home]
      exact .inr (pair_sublist_of_siteEdits succeeds foundSecond liftedSecond foundFirst
        liftedFirst home.symm after made' member' made member)

end

lemma siteEdits_ok (found : plan.tree.closure? id = some closure) (lifted : closure.isLifted = true) :
    ∃ made, plan.siteEdits id closure = .ok made := by
  obtain ⟨_,-,succeeds⟩ := bind_eq_ok.1 succeeds
  obtain ⟨_,all,-⟩ := bind_eq_ok.1 succeeds
  obtain ⟨results,resultsOk,-⟩ := bind_eq_ok.1 all
  obtain ⟨result,own⟩ := (mapM_eq_ok resultsOk []).2 (closure, id) (mk_mem_zipIdx_iff_getElem?.mpr found)
  simp only [lifted,if_true] at own
  obtain ⟨made,ok,-⟩ := bind_eq_ok.1 own
  exact ⟨made,ok⟩

lemma useEdit_ok (listed : reference ∈ plan.tree.rootReferences) : ∃ made, plan.useEdit reference = .ok made := by
  obtain ⟨_,all,-⟩ := bind_eq_ok.1 succeeds
  obtain ⟨results,resultsOk,-⟩ := bind_eq_ok.1 all
  obtain ⟨result,own⟩ := (mapM_eq_ok resultsOk none).2 reference listed
  obtain ⟨made,ok,-⟩ := bind_eq_ok.1 own
  exact ⟨made,ok⟩

end

lemma callOf_ok (made : ∃ made, plan.siteEdits id closure = .ok made)
    (written : ∀ fault, plan.callOf id closure = .error fault → plan.siteEdits id closure = .error fault) :
    ∃ call, plan.callOf id closure = .ok call := by
  obtain ⟨made,ok⟩ := made
  cases called : plan.callOf id closure with
  | ok call => exact ⟨call,rfl⟩
  | error fault => cases (written fault called).symm.trans ok

end

lemma exists_carries_of_bound (context : closure.context = .declaration false exported statement)
    (placed : plan.placement? id = some (.bound start isMutable))
    (made : ∃ made, plan.siteEdits id closure = .ok made) :
    ∃ call edit, plan.callOf id closure = .ok call ∧ plan.Carries id closure edit ∧
      (edit.text = bindingText closure isMutable call ∨ edit.text = bindingText closure isMutable call ++ " ") := by
  obtain ⟨call,called⟩ := callOf_ok made fun fault called => by simp [siteEdits,context,declarationEdits,placed,called]
  by_cases stays : start = statement.start
  · exact ⟨call,_,called,.stays context (stays ▸ placed) called,.inl rfl⟩
  · exact ⟨call,_,called,.moved context placed stays called,.inr rfl⟩

variable {source : List Char} {exportedNames : List String} {edits : List RegionEdit}

/-- If all edits can be made, every hoisted closure has an edit that carries its call. -/
lemma exists_carries (succeeds : (tree.plan file).edits source exportedNames = .ok edits)
    (found : tree.closure? id = some closure) (lifted : closure.isLifted = true) :
    ∃ edit, (tree.plan file).Carries id closure edit := by
  have made := siteEdits_ok succeeds found lifted
  rcases tree.placement_cases found with ⟨exported,statement,start,isMutable,context,placed⟩ |
    ⟨exported,statement,reference,context,placed,uses,takes,_⟩ | ⟨other,_⟩
  · have placed : (tree.plan file).placement? id = some (.bound start isMutable) := placed
    obtain ⟨_,edit,_,carries,_⟩ := exists_carries_of_bound context placed made
    exact ⟨edit,carries⟩
  · have placed : (tree.plan file).placement? id = some (.inline reference.span) := placed
    have used : reference ∈ tree.usage.usesOf id := by simp [uses]
    obtain ⟨listed,names,region⟩ := mem_usesOf.1 used
    have home : tree.regionAround reference.scope = tree.homeRegion closure := by
      rw [region,homeRegionOf,found,Option.bind_some]
    obtain ⟨name,mention⟩ : ∃ name, reference.mention = .identifier name := by
      unfold liftedDeclaration? at names
      split at names
      · exact ⟨_,by assumption⟩
      · cases names
    obtain ⟨made,ok⟩ := useEdit_ok succeeds listed
    cases called : (tree.plan file).callOf id closure with
    | error fault =>
      have names : (tree.plan file).tree.liftedDeclaration? reference = some id := names
      have found : (tree.plan file).tree.closure? id = some closure := found
      have home : (tree.plan file).tree.regionAround reference.scope = (tree.plan file).tree.homeRegion closure := home
      simp [useEdit,mention,variableEdit,names,found,replacement?,home,placed,called,Except.map] at ok
    | ok call =>
      cases position : reference.position with
      | plain | constructed | shorthand => exact ⟨_,.inlined placed used mention called (by rw [position]; rfl)⟩
      | assigned | tag => simp [Usage.takesCall,position] at takes
  · cases context : closure.context with
    | declaration topLevel exported statement =>
      cases topLevel with
      | true => simp [Closure.isLifted,context,isLifted] at lifted
      | false => exact absurd context (other exported statement)
    | defaultExport => simp [Closure.isLifted,context,isLifted] at lifted
    | expression =>
      obtain ⟨call,called⟩ := callOf_ok made fun fault called => by simp [siteEdits,context,called]
      exact ⟨_,.expression context called⟩
    | objectMethod member key computed =>
      obtain ⟨call,called⟩ := callOf_ok made fun fault called => by simp [siteEdits,context,called]
      exact ⟨_,.objectMethod context called⟩
    | classMethod member key computed isStatic =>
      obtain ⟨call,called⟩ := callOf_ok made fun fault called => by simp [siteEdits,context,called]
      exact ⟨_,.classMethod context called⟩

/-- In a region whose edits do not clash, calls stand in the order of their sites. -/
lemma carries_in_order (sound : tree.Sound True root)
    (succeeds : (tree.plan file).edits source exportedNames = .ok edits)
    (checked : Edit.check file (editsOf edits (tree.homeRegion first)) = .ok sorted) (apart : i ≠ j)
    (foundFirst : tree.closure? i = some first) (liftedFirst : first.isLifted = true)
    (foundSecond : tree.closure? j = some second) (liftedSecond : second.isLifted = true)
    (home : tree.homeRegion first = tree.homeRegion second)
    (carriesFirst : (tree.plan file).Carries i first a)
    (carriesSecond : (tree.plan file).Carries j second b)
    (before : (callSite (tree.plan file).placements i first).le
      (callSite (tree.plan file).placements j second) = true) : [a,b].Sublist sorted := by
  obtain ⟨equal,clear⟩ := Edit.check_eq_ok checked
  have numberFirst : (callSite (tree.plan file).placements i first).closure = i := callSite_closure ..
  have numberSecond : (callSite (tree.plan file).placements j second).closure = j := callSite_closure ..
  obtain ⟨startFirst,rankFirst⟩ := carriesFirst.at_site sound foundFirst
  obtain ⟨_,rankSecond⟩ := carriesSecond.at_site sound foundSecond
  have either := pair_sublist_of_carries succeeds foundFirst liftedFirst foundSecond
    liftedSecond home apart carriesFirst carriesSecond
  rw [equal] at clear ⊢
  rcases Edit.pair_sublist_sort either with order | reversed
  · exact order
  have clash : b.stop ≤ a.start := by simpa using Pairwise.sublist reversed clear
  simp only [CallSite.le,or_eq_true,and_eq_true,decide_eq_true_eq,beq_iff_eq, numberFirst,numberSecond] at before
  -- only two insertions at one offset can stand in either order; those keep the order of numbers
  rcases rankSecond with ⟨rank,beyond⟩ | ⟨rank,start,stop⟩
  · omega
  rcases rankFirst with ⟨rank',_⟩ | ⟨rank',start',stop'⟩
  · omega
  have numbers : i < j := by
    rcases before with earlier | ⟨_,lower | ⟨_,numbered⟩⟩
    · omega
    · omega
    · exact Nat.lt_of_le_of_ne numbered apart
  have ordered : a.before b = true := by
    simp only [Edit.before,or_eq_true,and_eq_true,decide_eq_true_eq,beq_iff_eq]
    omega
  rcases carriesFirst.written foundFirst with ⟨_,_,_,_,_,replaces⟩ | ⟨as,made,member⟩
  · omega
  rcases carriesSecond.written foundSecond with
    ⟨_,_,_,_,_,replaces⟩ | ⟨bs,made',member'⟩
  · omega
  · exact pair_sublist_mergeSort Edit.before_trans Edit.before_total ordered (pair_sublist_of_siteEdits succeeds
      foundFirst liftedFirst foundSecond liftedSecond home numbers made member made' member')

lemma mem_editsOf_of_carries (succeeds : plan.edits source exportedNames = .ok edits)
    (found : plan.tree.closure? id = some closure) (lifted : closure.isLifted = true)
    (carries : plan.Carries id closure edit) : edit ∈ editsOf edits (plan.tree.homeRegion closure) := by
  rw [editsOf_eq succeeds]
  rcases carries.written found with ⟨use,listed,_,region,made,_⟩ | ⟨made,ok,member⟩
  · have part := mem_referencePart made
    rw [region] at part
    exact mem_append_left _ (mem_flatMap.2 ⟨use,listed,part⟩)
  · refine mem_append_right _ (mem_flatMap.2 ⟨(closure, id),?_,?_⟩)
    · exact mk_mem_zipIdx_iff_getElem?.mpr found
    · exact mem_closurePart source exportedNames lifted ok member

end Plan

lemma CallSite.le_total {a b : CallSite} (later : a.le b = false) : b.le a = true := by
  have refuted : ¬a.le b = true := eq_false_iff.1 later
  simp only [CallSite.le,or_eq_true,and_eq_true,decide_eq_true_eq,beq_iff_eq] at *
  rcases Nat.lt_trichotomy a.offset b.offset with offset | offset | offset
  · exact absurd (.inl offset) refuted
  · rcases Nat.lt_trichotomy a.rank b.rank with rank | rank | rank
    · exact absurd (.inr ⟨offset,.inl rank⟩) refuted
    · refine .inr ⟨offset.symm,.inr ⟨rank.symm,?_⟩⟩
      exact (Nat.not_le.1 fun less => refuted (.inr ⟨offset,.inr ⟨rank,less⟩⟩)).le
    · exact .inr ⟨offset.symm,.inl rank⟩
  · exact .inl offset

lemma CallSite.le_refl (a : CallSite) : a.le a = true := by simp [CallSite.le]

lemma Scoping.bound_of_takes {tree : Scoping} {id target : ClosureIndex} {closure unit : Closure}
    (found : tree.closure? id = some closure) (unitFound : tree.closure? target = some unit)
    (context : unit.context = .declaration false exported statement) (takes : closure.takes target) :
    ∃ start isMutable, (tree.placements tree.usage).of? target = some (.bound start isMutable) := by
  rcases tree.placement_cases unitFound with ⟨_,_,start,isMutable,_,placed⟩ | ⟨_,_,_,_,_,_,_,capturers⟩ | ⟨other,_⟩
  · exact ⟨start,isMutable,placed⟩
  · obtain ⟨binding,member,arg⟩ := takes
    have captured : (target, id) ∈ tree.usage.captured := by
      refine mem_flatMap.2 ⟨(closure, id),mk_mem_zipIdx_iff_getElem?.mpr found,?_⟩
      exact mem_filterMap.2 ⟨binding,member,by rw [arg]⟩
    have capturer : id ∈ tree.usage.capturersOf target := mem_filterMap.2 ⟨(target, id),captured,by simp⟩
    simp [capturers] at capturer
  · exact absurd context (other exported statement)

namespace Plan

variable {tree : Scoping} {file : String} {source : List Char} {exportedNames : List String}
  {edits : List RegionEdit} {regions : List (Region × List Edit)} {id target : ClosureIndex}
  {closure unit : Closure} {edit : Edit}

lemma check_homeRegion (sound : tree.Sound True root)
    (checked : checkRegions file tree edits = .ok regions) (closure : Closure) :
    Edit.check file (editsOf edits (tree.homeRegion closure)) =
      .ok (sortedEdits regions (tree.homeRegion closure)) := by
  refine check_sortedEdits checked fun i home => ?_
  obtain ⟨region,found,_⟩ := sound.closure_of_region home
  exact (List.getElem?_eq_some_iff.1 found).1

section
variable (sound : tree.Sound True root) (succeeds : (tree.plan file).edits source exportedNames = .ok edits)
  (checked : checkRegions file tree edits = .ok regions) (found : tree.closure? id = some closure)
  (lifted : closure.isLifted = true)
include sound succeeds checked found lifted

lemma mem_sortedEdits_of_carries (carries : (tree.plan file).Carries id closure edit) :
    edit ∈ sortedEdits regions (tree.homeRegion closure) := by
  rw [(Edit.check_eq_ok (check_homeRegion sound checked closure)).1]
  exact (mergeSort_perm _ _).mem_iff.2 (mem_editsOf_of_carries succeeds found lifted carries)

lemma binding_before_call (unitFound : tree.closure? target = some unit)
    (context : unit.context = .declaration false exported statement) (takes : closure.takes target)
    (home : tree.homeRegion closure = tree.homeRegion unit) (eager : (id, target) ∉ (tree.plan file).lazy)
    (carries : (tree.plan file).Carries id closure edit) :
    ∃ isMutable call binding, (tree.plan file).callOf target unit = .ok call ∧
      (tree.plan file).Carries target unit binding ∧
      (binding.text = bindingText unit isMutable call ∨ binding.text = bindingText unit isMutable call ++ " ") ∧
      [binding,edit].Sublist (sortedEdits regions (tree.homeRegion closure)) := by
  have liftedUnit : unit.isLifted = true := by simp [Closure.isLifted,context,isLifted]
  have later : (callSite (tree.plan file).placements id closure).le
      (callSite (tree.plan file).placements target unit) = false := by
    refine eq_false_iff.2 fun early => eager ?_
    exact (mem_lazyCaptures (fun found => homeRegion_ne sound found) _ id target).2
      ⟨closure,unit,found,unitFound,takes,.inl ⟨home,early⟩⟩
  have apart : target ≠ id := by
    rintro rfl
    cases found.symm.trans unitFound
    simp [CallSite.le_refl] at later
  obtain ⟨start,isMutable,placed⟩ := bound_of_takes found unitFound context takes
  have placed : (tree.plan file).placement? target = some (.bound start isMutable) := placed
  obtain ⟨call,binding,called,carriesUnit,text⟩ := exists_carries_of_bound context placed
    (siteEdits_ok succeeds unitFound liftedUnit)
  refine ⟨isMutable,call,binding,called,carriesUnit,text,?_⟩
  rw [home]
  exact carries_in_order sound succeeds (check_homeRegion sound checked unit) apart unitFound
    liftedUnit found lifted home.symm carriesUnit carries (CallSite.le_total later)

end
end Plan

variable {source : List Char} {output : Output}

section
variable (compiled : analysis.output source options = .ok output)
include compiled

lemma Analysis.output_eq : ∃ edits regions,
    (analysis.tree.plan options.filename).edits source analysis.exportedNames = .ok edits ∧
    checkRegions options.filename analysis.tree edits = .ok regions ∧
    output.code = String.ofList (Piece.code (outputPieces source analysis.tree options.preamble regions)) := by
  obtain ⟨edits,succeeds,compiled⟩ := bind_eq_ok.1 compiled
  obtain ⟨regions,checked,⟨⟩⟩ := bind_eq_ok.1 compiled
  exact ⟨edits,regions,succeeds,checked,rfl⟩

lemma Analysis.edits_of_output : ∃ edits regions,
    (analysis.tree.plan options.filename).edits source analysis.exportedNames = .ok edits ∧
    checkRegions options.filename analysis.tree edits = .ok regions := by
  obtain ⟨edits,regions,succeeds,checked,-⟩ := Analysis.output_eq compiled
  exact ⟨edits,regions,succeeds,checked⟩

end

/-- If a program whose spans nest can be compiled, every hoisted closure has an edit that carries its
call, and in each region these edits stand in the order of the call sites. So the binding of a
declaration comes before any call of the region that passes it by its name. -/
theorem calls_stand_in_site_order (source : List Char) (selection : Selection)
    (program : Script.Program) (options : Options)
    (nested : Script.statementsNest program.body = true) {output : Output}
    (compiled : (analyzeBound source selection program).output source options = .ok output) :
    let tree := (analyzeBound source selection program).tree
    let plan := tree.plan options.filename
    ∃ edits regions,
      plan.edits source (analyzeBound source selection program).exportedNames = .ok edits ∧
      checkRegions options.filename tree edits = .ok regions ∧
      (∀ {id closure}, tree.closure? id = some closure → closure.isLifted = true →
        ∃ edit ∈ sortedEdits regions (tree.homeRegion closure), plan.Carries id closure edit) ∧
      (∀ {i j first second a b}, tree.closure? i = some first → first.isLifted = true →
        tree.closure? j = some second → second.isLifted = true → i ≠ j →
        tree.homeRegion first = tree.homeRegion second →
        plan.Carries i first a → plan.Carries j second b →
        (Scoping.callSite plan.placements i first).le
          (Scoping.callSite plan.placements j second) = true →
        [a, b].Sublist (sortedEdits regions (tree.homeRegion first))) ∧
      (∀ {id target closure unit exported statement edit}, tree.closure? id = some closure →
        closure.isLifted = true → tree.closure? target = some unit →
        unit.context = .declaration false exported statement → closure.takes target →
        tree.homeRegion closure = tree.homeRegion unit → (id, target) ∉ plan.lazy →
        plan.Carries id closure edit →
        ∃ isMutable call binding, plan.callOf target unit = .ok call ∧
          plan.Carries target unit binding ∧
          (binding.text = bindingText unit isMutable call ∨
            binding.text = bindingText unit isMutable call ++ " ") ∧
          [binding, edit].Sublist (sortedEdits regions (tree.homeRegion closure))) := by
  have sound : (analyzeBound source selection program).tree.Sound True Scoping.root :=
    (analyze_sound _ program fun _ => nested).bindAll
  generalize analyzeBound source selection program = analysis at *
  obtain ⟨edits, regions, succeeds, checked⟩ := Analysis.edits_of_output compiled
  refine ⟨edits, regions, succeeds, checked, ?_, ?_, ?_⟩
  · intro id closure found lifted
    obtain ⟨edit, carries⟩ := Plan.exists_carries succeeds found lifted
    exact ⟨edit, Plan.mem_sortedEdits_of_carries sound succeeds checked found lifted carries, carries⟩
  · intro i j first second a b foundFirst liftedFirst foundSecond liftedSecond apart home
    exact Plan.carries_in_order sound succeeds (Plan.check_homeRegion sound checked first) apart
      foundFirst liftedFirst foundSecond liftedSecond home
  · intro id target closure unit exported statement edit found lifted unitFound context takes home
    exact Plan.binding_before_call sound succeeds checked found lifted unitFound context takes home

/-- What can be computed of a program to see that it compiles: every region's edits are found in
order. -/
def Analysis.inOrder (analysis : Analysis) (source : List Char) (file : String) : Bool :=
  ((analysis.tree.plan file).edits source analysis.exportedNames).toOption.any fun edits =>
    (none :: (range analysis.tree.closures.length).map some).all fun region =>
      decide ((editsOf edits region).Pairwise fun a b => a.before b = true) &&
        (Edit.clash? (editsOf edits region)).isNone

lemma Analysis.output_of_inOrder (ordered : analysis.inOrder source options.filename = true) :
    ∃ output, analysis.output source options = .ok output := by
  cases made : (analysis.tree.plan options.filename).edits source analysis.exportedNames with
  | error fault => simp [inOrder,made,Except.toOption] at ordered
  | ok edits =>
    have checked : checkRegions options.filename analysis.tree edits = .ok
        ((none :: (range analysis.tree.closures.length).map some).map
          fun region => (region, editsOf edits region)) := by
      refine mapM_of_ok fun region listed => ?_
      have sorted : (editsOf edits region).Pairwise (fun a b => a.before b = true) ∧
          Edit.clash? (editsOf edits region) = none := by
        simp only [inOrder,made,Except.toOption,Option.any_some] at ordered
        simpa using all_eq_true.1 ordered region listed
      simp [Edit.check,Edit.sort,mergeSort_of_pairwise sorted.1,sorted.2]
    simp only [output,made,checked,bind_ok,pure_eq_ok]
    exact ⟨_,rfl⟩

/-- `function outer(x) { function f() { return x; } return [() => f(), f]; }` -/
def eagerCapture : Script.Program where
  span := ⟨0,73⟩
  body := [.function (.mk { span := ⟨0,73⟩, name := some ⟨"outer",⟨9,14⟩⟩, paramsStart := 14 }
    [.slot [] (.bind ⟨"x",⟨15,16⟩⟩) []]
    [.function (.mk { span := ⟨20,46⟩, name := some ⟨"f",⟨29,30⟩⟩, paramsStart := 30 } []
      [.returns [.name ⟨"x",⟨42,43⟩⟩] ⟨35,44⟩]),
     .returns [.node .array ⟨54,70⟩ [.arrow (.mk { span := ⟨55,64⟩, paramsStart := 55 } []
          [.expression (.node .call ⟨61,64⟩ [.name ⟨"f",⟨61,62⟩⟩]) ⟨61,64⟩]),
        .name ⟨"f",⟨66,67⟩⟩]] ⟨47,71⟩])]

def beneathOuter : Selection := .custom fun name => name != "outer"

/-- The arrow passes `f`, so the binding of `f` stands before the arrow's call. -/
theorem eagerCapture_bound_first :
    Script.statementsNest eagerCapture.body = true ∧
    ∃ output, (analyzeBound [] beneathOuter eagerCapture).output [] {} = .ok output ∧
    let tree := (analyzeBound [] beneathOuter eagerCapture).tree
    ∃ edits regions unit closure isMutable call binding edit,
      (tree.plan "").edits [] [] = .ok edits ∧ checkRegions "" tree edits = .ok regions ∧
      tree.closure? 0 = some unit ∧ tree.closure? 1 = some closure ∧
      (tree.plan "").callOf 0 unit = .ok call ∧
      (binding.text = bindingText unit isMutable call ∨
        binding.text = bindingText unit isMutable call ++ " ") ∧
      (tree.plan "").Carries 1 closure edit ∧ [binding, edit].Sublist (sortedEdits regions none) := by
  have nested : Script.statementsNest eagerCapture.body = true := by decide +kernel
  have compiles : ∃ output, (analyzeBound [] beneathOuter eagerCapture).output [] {} = .ok output :=
    Analysis.output_of_inOrder (by decide +kernel)
  obtain ⟨output, compiled⟩ := compiles
  refine ⟨nested, output, compiled, ?_⟩
  obtain ⟨edits, regions, succeeds, checked, carried, -, bound⟩ :=
    calls_stand_in_site_order [] beneathOuter eagerCapture _ nested compiled
  have exported : (analyzeBound [] beneathOuter eagerCapture).exportedNames = [] := by decide +kernel
  have declared : ((analyzeBound [] beneathOuter eagerCapture).tree.closure? 0).map (fun unit =>
      (unit.context, (analyzeBound [] beneathOuter eagerCapture).tree.homeRegion unit)) =
      some (.declaration false false ⟨20, 46⟩, none) := by decide +kernel
  have passed : ((analyzeBound [] beneathOuter eagerCapture).tree.closure? 1).map (fun closure =>
      ((closure.isLifted, closure.bindings.map Binding.arg),
        (analyzeBound [] beneathOuter eagerCapture).tree.homeRegion closure)) =
      some ((true, [.closure 0]), none) := by decide +kernel
  have eager : (1, 0) ∉ ((analyzeBound [] beneathOuter eagerCapture).tree.plan "").lazy := by
    decide +kernel
  obtain ⟨unit, unitFound, unitFacts⟩ := Option.map_eq_some_iff.mp declared
  obtain ⟨context, unitHome⟩ := Prod.mk.inj unitFacts
  obtain ⟨closure, found, facts⟩ := Option.map_eq_some_iff.mp passed
  obtain ⟨⟨lifted, args⟩, home⟩ := (Prod.mk.inj facts).imp Prod.mk.inj id
  have takes : closure.takes 0 := by
    have member : Capture.closure 0 ∈ closure.bindings.map Binding.arg := by simp [args]
    exact List.mem_map.mp member
  obtain ⟨edit, -, carries⟩ := carried found lifted
  obtain ⟨isMutable, call, binding, called, -, text, order⟩ := bound found lifted unitFound context
    takes (home.trans unitHome.symm) eager carries
  rw [exported] at succeeds
  rw [home] at order
  exact ⟨edits, regions, unit, closure, isMutable, call, binding, edit, succeeds, checked, unitFound,
    found, called, text, carries, order⟩

end Resumable
