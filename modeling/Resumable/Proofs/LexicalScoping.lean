import Resumable.Proofs.Aligning
import Mathlib.Data.List.Find

/-! Scopes of the analysis and lexical scoping. A name that is resolved to a scope is bound by the innermost frame
of that scope that declares it, or outside the scope if no such frame is around. The analysis does not tell the
frames of a scope apart: two places bind a name alike if they are inside the same ones. -/
namespace Resumable
open Script List Scoping
variable {resolution : Resolution} {scope : ScopeIndex} {frame : Frame}

/-! ### Frames around a place -/

/-- The innermost frame of a scope that declares a name, as seen from a place. -/
def Spot.nearest (place : Spot) (scope : ScopeIndex) (name : String) : Option Frame :=
  place.frames.find? fun frame => frame.owner == scope && frame.names.contains name

lemma owner_of_nearest {place : Spot} {name : String} (found : place.nearest scope name = some frame) :
    frame.owner = scope := by
  have holds := find?_some found
  simp at holds
  exact holds.1

section Frames
variable {first second : List Frame} {p : Frame → Bool}

lemma mem_of_find?_eq (parts : first = before ++ frame :: rest)
    (none : ∀ earlier ∈ before, (!p earlier) = true) (holds : p other = true) (mem : other ∈ first) :
    other ∈ frame :: rest := by
  rw [parts] at mem
  refine (mem_append.1 mem).resolve_left fun earlier => ?_
  simpa [holds] using none other earlier

lemma find?_eq_iff
    (nested : ∀ {frame : Frame} {a b : List Frame}, frame :: a <:+ first → frame :: b <:+ second → a = b) :
    first.find? p = second.find? p ↔ ∀ frame, p frame = true → (frame ∈ first ↔ frame ∈ second) := by
  constructor
  · intro same frame holds
    cases found : first.find? p with
    | none =>
      have one : frame ∉ first := fun mem => find?_eq_none.1 found frame mem holds
      have two : frame ∉ second := fun mem => find?_eq_none.1 (same ▸ found) frame mem holds
      exact iff_of_false one two
    | some innermost =>
      obtain ⟨-,before,rest,parts,none⟩ := find?_eq_some_iff_append.1 found
      obtain ⟨-,also,others,partsAlso,noneAlso⟩ := find?_eq_some_iff_append.1 (same ▸ found)
      have equal : rest = others := nested ⟨before,parts.symm⟩ ⟨also,partsAlso.symm⟩
      constructor
      · intro mem
        rw [partsAlso,← equal]
        exact mem_append_right _ (mem_of_find?_eq parts none holds mem)
      · intro mem
        rw [parts,equal]
        exact mem_append_right _ (mem_of_find?_eq partsAlso noneAlso holds mem)
  · intro same
    cases found : first.find? p with
    | none =>
      refine (find?_eq_none.2 fun frame mem holds => ?_).symm
      exact find?_eq_none.1 found frame ((same frame holds).2 mem) holds
    | some one =>
      obtain ⟨holds,before,rest,parts,none⟩ := find?_eq_some_iff_append.1 found
      have there : one ∈ second := (same one holds).1 (mem_of_find?_eq_some found)
      cases foundAlso : second.find? p with
      | none => exact absurd holds (find?_eq_none.1 foundAlso one there)
      | some two =>
        obtain ⟨holdsAlso,also,others,partsAlso,noneAlso⟩ := find?_eq_some_iff_append.1 foundAlso
        have here : two ∈ first := (same two holdsAlso).2 (mem_of_find?_eq_some foundAlso)
        by_contra differ
        have differ : one ≠ two := fun equal => differ (congrArg some equal)
        -- Each of the two would be around the other.
        have around := (mem_cons.1 (mem_of_find?_eq parts none holdsAlso here)).resolve_left differ.symm
        have aroundAlso := (mem_cons.1 (mem_of_find?_eq partsAlso noneAlso holds there)).resolve_left differ
        obtain ⟨inner,outer,split⟩ := append_of_mem around
        obtain ⟨innerAlso,outerAlso,splitAlso⟩ := append_of_mem aroundAlso
        have equal : outer = others := nested ⟨before ++ one :: inner,by rw [parts,split]; simp⟩ ⟨also,partsAlso.symm⟩
        have equalAlso : rest = outerAlso :=
          nested ⟨before,parts.symm⟩ ⟨also ++ two :: innerAlso,by rw [partsAlso,splitAlso]; simp⟩
        have long := congrArg length split
        have longAlso := congrArg length splitAlso
        simp only [length_append,length_cons,equal,← equalAlso] at long longAlso
        omega

end Frames

/-! ### Resolved names and bound names -/

/-- Scopes of the analysis as an outline has them: linked alike, and no frame has a name that its scope
does not know. -/
structure Matches (tree : Scoping) (outline : Outline) : Prop where
  parented : tree.Parented
  linked : Linked tree outline
  aligned : outline.Aligned
  complete : ∀ inside ∈ outline.insides, ∀ frame ∈ inside.frames.head?, ∀ name ∈ frame.names,
    tree.Knows frame.owner name

namespace Matches

variable {tree : Scoping} {outline : Outline} {place other : Spot} {name : String}

section
variable (fits : Matches tree outline) (aligned : place.Aligned outline)
include fits aligned

lemma knows (mem : frame ∈ place.frames) (declares : name ∈ frame.names) : tree.Knows frame.owner name := by
  obtain ⟨before,rest,parts⟩ := append_of_mem mem
  have around : frame :: rest <:+ place.frames := ⟨before,parts.symm⟩
  have entry := aligned.nested around
  exact fits.complete _ (mem_of_getElem? entry) frame rfl name declares

lemma owner_le (mem : frame ∈ place.frames) : frame.owner ≤ place.scope := by
  generalize is : place.scope = k
  induction k using Nat.strongRecOn generalizing place with
  | ind k ih =>
    obtain ⟨opening,inner,found,parts,owned⟩ := aligned.parts
    rw [parts] at mem
    rcases mem_append.1 mem with own | outer
    · exact ((owned frame own).trans is).le
    rw [Opening.outer] at outer
    cases outside : opening.outside with
    | none => simp [outside] at outer
    | some around =>
      rw [outside] at outer
      obtain ⟨lower,aligned⟩ := fits.aligned.opened found outside
      rw [is] at lower
      exact ((ih _ lower aligned outer rfl).trans_lt lower).le

lemma scope? : ∃ scope, tree.scope? place.scope = some scope := Scoping.scope?_of_lt (fits.linked.counted ▸ aligned.lt)

end

variable {inner outer : List Frame} {opening : Opening}

section
variable (fits : Matches tree outline)
include fits

section
variable (aligned : place.Aligned outline) (unknown : ¬ tree.Knows place.scope name)
include aligned unknown

lemma find?_inner (parts : place.frames = inner ++ outer) (owned : ∀ frame ∈ inner, frame.owner = place.scope)
    (p : Frame → Bool) (declares : ∀ frame, p frame = true → name ∈ frame.names) :
    place.frames.find? p = outer.find? p := by
  have none : inner.find? p = none := by
    refine find?_eq_none.2 fun frame mem holds => unknown ?_
    rw [← owned frame mem]
    exact fits.knows aligned (parts ▸ mem_append_left _ mem) (declares frame holds)
  rw [parts,find?_append,none,Option.none_or]

lemma step (resolved : tree.resolve place.scope name = some resolution) :
    ∃ opening around, outline.openings[place.scope]? = some opening ∧
      opening.outside = some around ∧ around.Aligned outline ∧ around.scope < place.scope ∧
      tree.chain place.scope = place.scope :: tree.chain around.scope ∧
      tree.resolve around.scope name = some resolution ∧
      ∀ p : Frame → Bool, (∀ frame, p frame = true → name ∈ frame.names) →
        place.frames.find? p = around.frames.find? p := by
  obtain ⟨opening,inner,found,parts,owned⟩ := aligned.parts
  obtain ⟨scope, entry⟩ := fits.scope? aligned
  have here : tree.resolveIn name place.scope = none := by
    rwa [knows_iff_resolveIn,Option.not_isSome_iff_eq_none] at unknown
  have parent := fits.linked.parents entry found
  cases outside : opening.outside with
  | none =>
    rw [outside] at parent
    rw [Scoping.resolve,chain_of_orphan entry parent] at resolved
    simp [here] at resolved
  | some around =>
    rw [outside] at parent
    have chain := chain_of_parent fits.parented entry parent
    obtain ⟨lower,aligned'⟩ := fits.aligned.opened found outside
    refine ⟨opening,around,found,outside,aligned',lower,chain,?_,fun p declares => ?_⟩
    · rw [Scoping.resolve,chain,findSome?_cons,here] at resolved
      exact resolved
    · rw [fits.find?_inner aligned unknown parts owned p declares,Opening.outer,outside]
      rfl

end

lemma scope_of_knows (aligned : place.Aligned outline) (known : tree.Knows place.scope name)
    (resolved : tree.resolve place.scope name = some resolution) :
    resolution.scope = place.scope := by
  obtain ⟨here,found⟩ := Option.isSome_iff_exists.1 (knows_iff_resolveIn.1 known)
  obtain ⟨scope, entry⟩ := fits.scope? aligned
  rw [Scoping.resolve] at resolved
  have first : tree.chain place.scope = place.scope :: (tree.chain place.scope).tail := by
    cases up : scope.parent with
    | none => rw [chain_of_orphan entry up]; rfl
    | some parent => rw [chain_of_parent fits.parented entry up]; rfl
  rw [first,findSome?_cons,found] at resolved
  obtain rfl := Option.some.inj resolved
  exact resolveIn_scope found

lemma outer_lt (opened : outline.openings[k]? = some opening) (mem : frame ∈ opening.outer) : frame.owner < k := by
  rw [Opening.outer] at mem
  cases outside : opening.outside with
  | none => simp [outside] at mem
  | some around =>
    rw [outside] at mem
    obtain ⟨lower,aligned⟩ := fits.aligned.opened opened outside
    exact (fits.owner_le aligned mem).trans_lt lower

end

lemma binding_of_parts (parts : place.frames = inner ++ outer) (owned : ∀ frame ∈ inner, frame.owner = place.scope)
    (lower : ∀ frame ∈ outer, frame.owner < place.scope) :
    place.binding name = (place.nearest place.scope name).or (outer.find? fun frame => frame.names.contains name) := by
  have alike : (inner.find? fun frame => frame.owner == place.scope && frame.names.contains name) =
      inner.find? fun frame => frame.names.contains name :=
    find?_congr fun frame mem => by rw [owned frame mem,beq_self_eq_true,Bool.true_and]
  have none : (outer.find? fun frame => frame.owner == place.scope && frame.names.contains name) = none := by
    refine find?_eq_none.2 fun frame mem holds => ?_
    have owner : frame.owner = place.scope := by simp_all
    exact Nat.lt_irrefl _ (owner ▸ lower frame mem)
  rw [Spot.binding,Spot.nearest,parts,find?_append,find?_append,alike,none, Option.or_none]

section
variable (aligned : place.Aligned outline)
include aligned

/-- A resolved name is bound by the innermost frame of its scope that declares it, and by what is
around the scope if there is none. -/
lemma binding_eq (fits : Matches tree outline) (resolved : tree.resolve place.scope name = some resolution)
    (opened : outline.openings[resolution.scope]? = some opening) :
    place.binding name = (place.nearest resolution.scope name).or
    (opening.outer.find? fun frame => frame.names.contains name) := by
  generalize is : place.scope = k
  induction k using Nat.strongRecOn generalizing place with
  | ind k ih =>
    by_cases known : tree.Knows place.scope name
    · have own := fits.scope_of_knows aligned known resolved
      obtain ⟨same,inner,found,parts,owned⟩ := aligned.parts
      rw [own] at opened ⊢
      obtain rfl := Option.some.inj (found.symm.trans opened)
      exact binding_of_parts parts owned fun frame mem => fits.outer_lt found mem
    · obtain ⟨_,around,_,_,aligned',lower,_,resolved',alike⟩ := fits.step aligned known resolved
      have bound := ih _ (is ▸ lower) aligned' resolved' rfl
      rw [Spot.binding,alike _ (by simp),← Spot.binding,bound,Spot.nearest,Spot.nearest, alike _ (by simp)]

lemma nearest_eq_iff (also : other.Aligned outline)
    (scope : ScopeIndex) : place.nearest scope name = other.nearest scope name ↔
    ∀ frame : Frame, frame.owner = scope → name ∈ frame.names → (frame ∈ place.frames ↔ frame ∈ other.frames) := by
  rw [Spot.nearest,Spot.nearest,find?_eq_iff]
  · simp
  · intro frame a b one two
    have same := (aligned.nested one).symm.trans (also.nested two)
    cases same
    rfl

lemma binding_eq_iff (fits : Matches tree outline)
    (also : other.Aligned outline) (resolved : tree.resolve place.scope name = some a)
    (resolvedAlso : tree.resolve other.scope name = some b) (same : a.scope = b.scope) :
    place.binding name = other.binding name ↔ ∀ frame : Frame, frame.owner = a.scope →
    name ∈ frame.names → (frame ∈ place.frames ↔ frame ∈ other.frames) := by
  have inside : a.scope < outline.openings.length := by
    have mem := resolve_scope_mem_chain resolved
    exact (le_of_mem_chain fits.parented mem).trans_lt aligned.lt
  obtain ⟨opening,opened⟩ : ∃ opening, outline.openings[a.scope]? = some opening := ⟨_,getElem?_eq_getElem inside⟩
  have outer {frame : Frame} (found : opening.outer.find? (fun frame => frame.names.contains name) = some frame) :
      frame.owner ≠ a.scope :=
    (fits.outer_lt opened (mem_of_find?_eq_some found)).ne
  have bound := fits.binding_eq aligned resolved opened
  have boundAlso := fits.binding_eq also resolvedAlso (same ▸ opened)
  rw [← nearest_eq_iff aligned also,bound,boundAlso,← same]
  constructor
  · intro equal
    cases one : place.nearest a.scope name with
    | some frame =>
      cases two : other.nearest a.scope name with
      | some _ => simpa [one,two] using equal
      | none =>
        rw [one,two] at equal
        exact absurd (owner_of_nearest one) (outer equal.symm)
    | none =>
      cases two : other.nearest a.scope name with
      | some frame =>
        rw [one,two] at equal
        exact absurd (owner_of_nearest two) (outer equal)
      | none => rfl
  · intro equal
    rw [equal]

lemma binding_outside (fits : Matches tree outline)
    (within : scope ∈ tree.chain place.scope) (resolved : tree.resolve place.scope name = some resolution)
    (outside : scope ∉ tree.chain resolution.scope) :
    ∃ opening around, outline.openings[scope]? = some opening ∧ opening.outside = some around ∧
    tree.resolve around.scope name = some resolution ∧ place.binding name = around.binding name := by
  generalize is : place.scope = k
  induction k using Nat.strongRecOn generalizing place with
  | ind k ih =>
    have unknown : ¬ tree.Knows place.scope name := fun known =>
      outside (fits.scope_of_knows aligned known resolved ▸ within)
    obtain ⟨opening,around,opened,isOutside,aligned',lower,chain,resolved',alike⟩ := fits.step aligned unknown resolved
    have bound : place.binding name = around.binding name := alike _ (by simp)
    rw [chain] at within
    rcases mem_cons.1 within with rfl | further
    · exact ⟨opening,around,opened,isOutside,resolved',bound⟩
    · rw [bound]
      exact ih _ (is ▸ lower) aligned' further resolved' rfl

end

end Matches

/-! ### Programs -/

lemma linked_start (span : Span) : Linked (Scoping.ofProgram span) .start := by
  refine ⟨rfl,fun {k scope opening} found opened => ?_⟩
  obtain rfl := mem_singleton.1 (mem_of_getElem? found)
  obtain rfl := mem_singleton.1 (mem_of_getElem? opened)
  rfl

lemma Outline.aligned_start : Outline.start.Aligned := by
  refine ⟨fun {k opening place} opened outside => ?_,nofun⟩
  obtain rfl := mem_singleton.1 (mem_of_getElem? opened)
  cases outside

lemma Spot.aligned_start : Spot.start.Aligned .start :=
  ⟨⟨⟨.program,none⟩,[],rfl,rfl,nofun⟩,fun around => by simp [Spot.start] at around⟩

lemma analyze_traces (setting : Selecting) (program : Program) :
    ∃ walked, Trace setting .start { tree := Scoping.ofProgram program.span } .start walked program.outline ∧
      walked.tree = (analyze setting program).tree := by
  refine ⟨_,list_traces setting ⟨ofProgram_sound program.span,rfl,rfl⟩ ?_
    (walkStmts_follows setting .top program.body),rfl⟩
  intro name listed inner tree current
  rw [← current]
  refine walkStmts_knowsBody setting ?_ (fun _ => current) ?_ listed
  · rw [tree,current]
    exact ofProgram_sound program.span
  · rw [tree,current]
    rfl

variable {outline : Outline}

section
variable (setting : Selecting) (program : Program)

lemma analyze_matches : Matches (analyze setting program).tree.bindAll program.outline := by
  obtain ⟨walked,trace,is⟩ := analyze_traces setting program
  have sound : (analyze setting program).tree.Sound False Scoping.root := analyze_sound setting program False.elim
  have fits : Matches walked.tree program.outline :=
    ⟨is ▸ sound.parented,(trace.stays (linked_start _) rfl).linked,
      trace.aligned Outline.aligned_start Spot.aligned_start,
      fun inside listed => (trace.complete listed).resolve_left nofun⟩
  rw [is] at fits
  have same := bindAll_bare (analyze setting program).tree
  have grows := grows_of_bare_eq same
  exact ⟨sound.bindAll.parented,fits.linked.of_grows grows (length_of_bare_eq same),fits.aligned,
    fun inside listed frame first name named => (fits.complete inside listed frame first name named).mono grows⟩

lemma references_stand_for_uses :
    ((analyze setting program).tree.bindAll.referencesIn Scoping.root).Forall₂ Reference.StandsFor
      program.outline.uses := by
  rw [referencesIn_congr (bindAll_bare _)]
  obtain ⟨walked,trace,is⟩ := analyze_traces setting program
  obtain ⟨references,uses,added,used,stand⟩ := (trace.adds (linked_start _) rfl Nat.zero_lt_one).added
  rw [← is,show walked.tree.referencesIn Scoping.root = references from added,
    show program.outline.uses = uses from used]
  exact stand

end

lemma Outline.Aligned.of_mem_places (aligned : outline.Aligned) (listed : place ∈ outline.places) :
    place.Aligned outline := by
  rcases mem_append.1 listed with used | opened
  · obtain ⟨use,mem,rfl⟩ := mem_map.1 used
    exact aligned.used use mem
  · obtain ⟨opening,mem,outside⟩ := mem_filterMap.1 opened
    obtain ⟨k,found⟩ := mem_iff_getElem?.1 mem
    exact (aligned.opened found outside).2

/-- References are the uses of names in a program, in its order. Where a name is resolved to the same
scope from two places, both bind it alike if and only if they are inside the same ones of the frames of
that scope that declare it. A name that is resolved outside a closure is bound inside the closure as it is
where the literal stands, and resolved there alike. -/
theorem resolve_respects_frames (setting : Selecting) (program : Program) :
    let tree := (analyze setting program).tree.bindAll
    let outline := program.outline
    (tree.referencesIn Scoping.root).Forall₂ Reference.StandsAt outline.uses ∧
    (∀ p ∈ outline.places, ∀ q ∈ outline.places, ∀ (name : String) (a b : Resolution),
      tree.resolve p.scope name = some a → tree.resolve q.scope name = some b → a.scope = b.scope →
      (p.binding name = q.binding name ↔ ∀ frame : Frame, frame.owner = a.scope →
        name ∈ frame.names → (frame ∈ p.frames ↔ frame ∈ q.frames))) ∧
    ∀ (id : ClosureIndex) (closure : Closure), tree.closure? id = some closure →
      ∀ p ∈ outline.places, ∀ (name : String) (a : Resolution),
      tree.resolve p.scope name = some a → closure.scope ∈ tree.chain p.scope →
      closure.scope ∉ tree.chain a.scope →
      ∃ opening site, outline.openings[closure.scope]? = some opening ∧ opening.outside = some site ∧
        site.scope = closure.parent ∧ tree.resolve site.scope name = some a ∧
        p.binding name = site.binding name := by
  intro tree outline
  have fits : Matches tree outline := analyze_matches setting program
  have aligned {place : Spot} (listed : place ∈ outline.places) : place.Aligned outline :=
    fits.aligned.of_mem_places listed
  refine ⟨(references_stand_for_uses setting program).imp fun _ _ stands => stands.toStandsAt,
    fun p listed q listedAlso name a b => ?_,
    fun id closure found p listed name a resolved within beyond => ?_⟩
  · exact fits.binding_eq_iff (aligned listed) (aligned listedAlso)
  · obtain ⟨opening, site, opened, outside, there, bound⟩ :=
      fits.binding_outside (aligned listed) within resolved beyond
    refine ⟨opening, site, opened, outside, ?_, there, bound⟩
    have sound : (analyze setting program).tree.Sound False Scoping.root :=
      analyze_sound setting program False.elim
    obtain ⟨scope, entry, -, up⟩ := sound.bindAll.owned found
    have parent := fits.linked.parents entry opened
    rw [outside, up] at parent
    exact (Option.some.inj parent).symm

/-- `function f(x) { function show() { return x; } { const x = null; return show(); } }` -/
def shadowedInBlock : Program where
  span := ⟨0,82⟩
  body := [.function (.mk { span := ⟨0,82⟩, name := some ⟨"f",⟨9,10⟩⟩, paramsStart := 10 }
    [.slot [] (.bind ⟨"x",⟨11,12⟩⟩) []]
    [.function (.mk { span := ⟨16,45⟩, name := some ⟨"show",⟨25,29⟩⟩, paramsStart := 29 } []
      [.returns [.name ⟨"x",⟨41,42⟩⟩] ⟨34,43⟩]),
    .block [.variableDecl .const [.slot [] (.bind ⟨"x",⟨54,55⟩⟩) [.null ⟨58,62⟩]] ⟨48,63⟩,
      .returns [.node .call ⟨71,77⟩ [.name ⟨"show",⟨71,75⟩⟩]] ⟨64,78⟩] ⟨46,80⟩])]

/-- Both inside `show` and where it is called, `x` is resolved to the scope of `f`, but the call stands in
a block that has an `x` of its own. -/
theorem shadowedInBlock_binds_apart :
    let tree := (analyze { source := [], selects := fun _ => true } shadowedInBlock).tree.bindAll
    ∃ inside ∈ shadowedInBlock.outline.uses, ∃ call ∈ shadowedInBlock.outline.uses,
      inside.name = some "x" ∧ call.name = some "show" ∧
      (tree.resolve inside.place.scope "x").isSome ∧
      tree.resolve inside.place.scope "x" = tree.resolve call.place.scope "x" ∧
      inside.place.binding "x" ≠ call.place.binding "x" := by
  decide +kernel

end Resumable
