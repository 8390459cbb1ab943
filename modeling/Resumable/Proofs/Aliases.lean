import Resumable.Proofs.Aligning

/-! The names under which closures are exported. They are handed out as the walk meets literals, and are taken from
then on. A literal that keeps its own name takes it in any case; for all others the first free candidate is chosen.
-/
namespace Resumable
open Script Closure

/-! ### Candidates -/

namespace Closure

def keepsName (closure : Closure) : Bool := !closure.isLifted && closure.hasOwnName

def label (closure : Closure) : Option String :=
  match closure.context with
  | .defaultExport _ _ => some "default"
  | _ => closure.name

def candidate (setting : Selecting) (closure : Closure) (salt : Nat) : String :=
  let text := String.ofList (Text.slice setting.source closure.span.start closure.span.stop)
  Naming.saltedAlias closure.label text.toUTF8.toList (UInt32.ofNat closure.span.start) (UInt32.ofNat salt)

inductive Named (setting : Selecting) (taken : List String) (closure : Closure) : Prop where
  | kept (keeps : closure.keepsName = true) (own : closure.name = some closure.exportName)
  | made (salt : Nat) (keeps : closure.keepsName = false) (chosen : closure.exportName = closure.candidate setting salt)
      (first : ∀ earlier < salt, closure.candidate setting earlier ∈ taken)
      (free : closure.exportName ∈ taken → salt = UInt32.size - 1)

variable {setting : Selecting} {taken : List String} {closure other : Closure}

lemma Named.exhausted (named : closure.Named setting taken) (listed : closure.exportName ∈ taken) :
    closure.keepsName = true ∨ ∀ salt < UInt32.size - 1, closure.candidate setting salt ∈ taken := by
  cases named with
  | kept keeps => exact .inl keeps
  | made salt _ _ first free => exact .inr (free listed ▸ first)

lemma Named.mono (named : closure.Named setting taken) (same : ∀ name, name ∈ more ↔ name ∈ taken) :
    closure.Named setting more := by
  cases named with
  | kept keeps own => exact .kept keeps own
  | made salt keeps chosen first free =>
    exact .made salt keeps chosen (fun earlier low => (same _).2 (first earlier low))
      fun listed => free ((same _).1 listed)

lemma Named.of_capturing {bindings : List Binding} {selfReferencing : Bool}
    (named : (closure.capturing bindings selfReferencing).Named setting taken) :
    closure.Named setting taken := by
  cases named with
  | kept keeps own => exact .kept keeps own
  | made salt keeps chosen first free => exact .made salt keeps chosen first free

end Closure

/-! ### Handing out a name -/

namespace Naming.Allocator

lemma freeSalt_spec (allocator : Allocator) (name : Option String) (text : List UInt8)
    (offset : UInt32) (tries salt : Nat) :
    (∀ earlier, salt ≤ earlier → earlier < allocator.freeSalt name text offset tries salt →
      saltedAlias name text offset (UInt32.ofNat earlier) ∈ allocator.used) ∧
    (saltedAlias name text offset (UInt32.ofNat (allocator.freeSalt name text offset tries salt)) ∈
        allocator.used → allocator.freeSalt name text offset tries salt = salt + tries) := by
  induction tries generalizing salt with
  | zero => exact ⟨fun _ low high => absurd high low.not_gt,fun _ => rfl⟩
  | succ tries ih =>
    rw [freeSalt]
    split
    · rename_i listed
      obtain ⟨before,last⟩ := ih (salt + 1)
      refine ⟨fun earlier low high => ?_,fun taken => by rw [last taken]; omega⟩
      rcases Nat.lt_or_ge salt earlier with above | below
      · exact before earlier above high
      · rw [below.antisymm low]
        simpa using listed
    · rename_i free
      exact ⟨fun _ low high => absurd high low.not_gt,fun taken => by simp [taken] at free⟩

end Naming.Allocator

section
variable {setting : Selecting} {guard : Guard} {builder later : Builder}

/-- What is chosen is taken, and is the literal's own name or the first free candidate. -/
lemma chooseAlias_spec (site : Site) (candidate : Candidate) (parent : ScopeIndex)
    (chooses : chooseAlias setting site.context candidate (candidate.ownName.or site.name) builder.allocator = chosen) :
    chosen.2 = builder.allocator.reserve chosen.1 ∧
      (closureOf site candidate parent chosen.1 builder).Named setting builder.allocator.used := by
  subst chooses
  have made (label : Option String) (keeps : ∀ name, (closureOf site candidate parent name builder).keepsName = false)
      (labelled : ∀ name, (closureOf site candidate parent name builder).label = label) :
      let text := String.ofList (Text.slice setting.source candidate.span.start candidate.span.stop)
      (closureOf site candidate parent (builder.allocator.allocate label text.toUTF8.toList
        (UInt32.ofNat candidate.span.start)).1 builder).Named setting builder.allocator.used := by
    intro text
    have candidates (name : String) (salt : Nat) :
        (closureOf site candidate parent name builder).candidate setting salt =
          Naming.saltedAlias label text.toUTF8.toList (UInt32.ofNat candidate.span.start) (UInt32.ofNat salt) := by
      simp only [Closure.candidate,labelled]
      rfl
    obtain ⟨before,last⟩ := builder.allocator.freeSalt_spec label text.toUTF8.toList
      (UInt32.ofNat candidate.span.start) (UInt32.size - 1) 0
    refine .made _ (keeps _) (candidates _ _).symm (fun earlier low => ?_) fun listed => ?_
    · rw [candidates]
      exact before earlier (Nat.zero_le _) low
    · exact (last listed).trans (Nat.zero_add _)
  unfold chooseAlias
  dsimp only
  split
  iterate 2
    · rename_i context own
      refine ⟨rfl,.kept ?_ ?_⟩
      · simp [keepsName,isLifted,closureOf,context,own,ClosureForm.isLifted]
      · simp [closureOf,own]
  · rename_i context own
    refine ⟨rfl,made (some "default") (fun name => ?_) fun name => ?_⟩
    · simp [keepsName,closureOf,own]
    · simp [label,closureOf,context]
  · rename_i declared named unnamed
    refine ⟨rfl,made _ (fun name => ?_) fun name => ?_⟩
    · cases own : candidate.ownName with
      | none => simp [keepsName,closureOf,own]
      | some own' =>
        have lifted : site.context.isLifted = true := by
          unfold ClosureForm.isLifted
          split
          · exact (declared _ _ _ ‹_› own).elim
          · exact (named _ _ _ ‹_› own).elim
          · rfl
        simp [keepsName,isLifted,closureOf,lifted]
    · have other : ∀ statement isDeclaration, site.context ≠ .defaultExport statement isDeclaration := by
        intro statement isDeclaration context
        cases own : candidate.ownName with
        | none => exact unnamed _ _ context own
        | some own' => exact named _ _ _ context own
      simp only [label,closureOf]

/-- Names are taken in the order of closures, each one named after those before. -/
structure Builder.Names (setting : Selecting) (builder : Builder) : Prop where
  used : builder.allocator.used = (builder.tree.closures.map Closure.exportName).reverse
  named : ∀ {i : ClosureIndex} {closure : Closure}, builder.tree.closures[i]? = some closure →
    closure.Named setting ((builder.tree.closures.take i).map Closure.exportName)
  /-- What is bound under its own name and has none goes by its alias. -/
  unnamed : ∀ closure ∈ builder.tree.closures, closure.context.introducesItself = true →
    closure.hasOwnName = false → closure.name = none

lemma Builder.Names.of_eq (names : builder.Names setting) (closures : later.tree.closures = builder.tree.closures)
    (allocator : later.allocator = builder.allocator) : later.Names setting := by
  refine ⟨?_,fun found => ?_,closures ▸ names.unnamed⟩
  · rw [allocator,closures,names.used]
  · rw [closures] at found ⊢
    exact names.named found

lemma register_closures (setting : Selecting) (site : Site) (candidate : Candidate) (parent : ScopeIndex)
    (builder : Builder) :
    (register setting site candidate parent builder).2 = builder ∨
    ∃ chosen, chooseAlias setting site.context candidate (candidate.ownName.or site.name) builder.allocator = chosen ∧
      (register setting site candidate parent builder).2.tree.closures =
        builder.tree.closures ++ [closureOf site candidate parent chosen.1 builder] ∧
      (register setting site candidate parent builder).2.allocator = chosen.2 := by
  simp only [register]
  split
  · exact .inl rfl
  · exact .inr ⟨_,rfl,rfl,rfl⟩

lemma names_register (names : builder.Names setting)
    (unnamed : site.context.introducesItself = true → site.name = none) (candidate : Candidate)
    (parent : ScopeIndex) : (register setting site candidate parent builder).2.Names setting := by
  rcases register_closures setting site candidate parent builder with
    same | ⟨chosen,chooses,closures,allocator⟩
  · rwa [same]
  obtain ⟨reserves,named⟩ := chooseAlias_spec site candidate parent chooses
  refine ⟨?_,fun {i closure} found => ?_,fun closure listed introduces noName => ?_⟩
  · rw [allocator,closures,reserves,List.map_append,List.reverse_append,← names.used]
    rfl
  · rw [closures] at found ⊢
    rcases getElem?_concat_cases found with old | ⟨rfl,rfl⟩
    · rw [List.take_append_of_le_length (List.getElem?_eq_some_iff.1 old).1.le]
      exact names.named old
    · rw [List.take_left]
      exact named.mono fun name => by simp [names.used]
  · rw [closures] at listed
    rcases List.mem_append.1 listed with old | new
    · exact names.unnamed closure old introduces noName
    · obtain rfl := List.mem_singleton.1 new
      have none : candidate.ownName = none := by simpa [closureOf] using noName
      simp [closureOf,none,unnamed introduces]

lemma Walk.keepsNames (walk : Walk setting nests guard builder later) (names : builder.Names setting) :
    later.Names setting := by
  induction walk with
  | done => exact names
  | andThen _ _ one two => exact two (one names)
  | declares | records | imports => exact names.of_eq rfl rfl
  | @exports builder id =>
    refine names.of_eq (by rw [Builder.exportName_tree]) ?_
    unfold Builder.exportName
    split <;> rfl
  | list _ _ ih => exact (ih (names.of_eq rfl rfl)).of_eq rfl rfl
  | nested _ _ _ ih => exact (ih (names.of_eq rfl rfl)).of_eq (Scoping.closures_passUp _) rfl
  | closure _ _ site candidate suits _ _ _ one two =>
    exact (two (names_register (one (names.of_eq rfl rfl)) suits.unnamed ..)).of_eq (Scoping.closures_passUp _) rfl

end

/-! ### Programs -/

section
variable (setting : Selecting) (program : Program)

lemma analyze_names : ∃ walked : Builder, walked.tree = (analyze setting program).tree ∧ walked.Names setting := by
  have start : ({ tree := Scoping.ofProgram program.span } : Builder).Names setting :=
    ⟨rfl,fun found => (Option.some_ne_none _ found.symm).elim,List.forall_mem_nil _⟩
  exact ⟨_,rfl,(walk_of_program setting program False.elim).keepsNames start⟩

lemma aliases_eq : (analyze setting program).tree.bindAll.closures.map exportName =
    (analyze setting program).tree.closures.map exportName := by
  have bare := congrArg Scoping.closures (Scoping.bindAll_bare (analyze setting program).tree)
  have same := congrArg (List.map exportName) bare
  simpa [Scoping.bare,Function.comp_def,Closure.bare] using same

variable {i j : ClosureIndex} {closure other : Closure}

section
variable (found : (analyze setting program).tree.bindAll.closure? i = some closure)
include found

lemma named_after_earlier :
    closure.Named setting (((analyze setting program).tree.bindAll.closures.map exportName).take i) := by
  obtain ⟨walked,is,walkedNames⟩ := analyze_names setting program
  obtain ⟨_,_, entry⟩ := Scoping.capturing_of_bare_eq (Scoping.bindAll_bare _) found
  rw [← is] at entry
  rw [aliases_eq,← is,← List.map_take]
  exact (walkedNames.named entry).of_capturing

/-- Of two closures with one alias the later one keeps its own name, unless all candidates are taken that
there are. -/
lemma later_twin (entry : (analyze setting program).tree.bindAll.closure? j = some other)
    (same : other.exportName = closure.exportName) (earlier : i < j) :
    other.keepsName = true ∨ ∀ salt < UInt32.size - 1, other.candidate setting salt ∈
      ((analyze setting program).tree.bindAll.closures.map exportName).take j := by
  refine (named_after_earlier setting program entry).exhausted ?_
  have listed : ((analyze setting program).tree.bindAll.closures.take j)[i]? = some closure := by
    rwa [List.getElem?_take_of_lt earlier]
  rw [same,← List.map_take]
  exact List.mem_map_of_mem (List.mem_of_getElem? listed)

end
end

/-- The alias of every closure is its own name if it is a top-level declaration or a default export that
has one, and else the first of its candidates that no closure before it has. So of two closures with one
alias the later one keeps its own name, unless all candidates are taken that there are. -/
theorem alias_is_first_free_candidate (setting : Selecting) (program : Program) (i : ClosureIndex)
    (closure : Closure) (found : (analyze setting program).tree.bindAll.closure? i = some closure) :
    let aliases := (analyze setting program).tree.bindAll.closures.map Closure.exportName
    closure.Named setting (aliases.take i) ∧
      ∀ (j : ClosureIndex) (other : Closure),
        (analyze setting program).tree.bindAll.closure? j = some other →
        other.exportName = closure.exportName → i < j → other.keepsName = true ∨
          ∀ salt < UInt32.size - 1, other.candidate setting salt ∈ aliases.take j := by
  refine ⟨named_after_earlier setting program found, fun j other entry same earlier => ?_⟩
  exact later_twin setting program found entry same earlier

def laterTwinText : String := "const f = () => null;\nfunction f_iGNrSvpg() \x7b\x7d"

def laterTwin : Program where
  span := ⟨0,46⟩
  body := [.variableDecl .const [.slot [] (.bind ⟨"f",⟨6,7⟩⟩)
      [.arrow (.mk { span := ⟨10,20⟩, paramsStart := 10 } [] [.returns [.null ⟨16,20⟩] ⟨16,20⟩])]] ⟨0,21⟩,
    .function (.mk { span := ⟨22,46⟩, name := some ⟨"f_iGNrSvpg",⟨31,41⟩⟩, paramsStart := 41 } [] [])]

/-- A declaration that follows has the alias of the arrow function for its name. -/
theorem laterTwin_shares_alias :
    let setting : Selecting := { source := laterTwinText.toList, selects := fun _ => true }
    (analyze setting laterTwin).tree.bindAll.closures.map
      (fun closure => (closure.exportName, closure.isLifted)) =
        [("f_iGNrSvpg", true), ("f_iGNrSvpg", false)] := by
  decide +kernel

theorem laterTwin_keeps_its_name :
    let setting : Selecting := { source := laterTwinText.toList, selects := fun _ => true }
    let tree := (analyze setting laterTwin).tree.bindAll
    ∃ arrow twin, tree.closure? 0 = some arrow ∧ tree.closure? 1 = some twin ∧
      arrow.Named setting [] ∧ twin.exportName = arrow.exportName ∧
      (twin.keepsName = true ∨ ∀ salt < UInt32.size - 1,
        twin.candidate setting salt ∈ [arrow.exportName]) := by
  intro setting tree
  have shared : tree.closures.map Closure.exportName = ["f_iGNrSvpg", "f_iGNrSvpg"] := by decide +kernel
  obtain ⟨arrow, rest, closures, first, others⟩ := List.map_eq_cons_iff.1 shared
  obtain ⟨twin, _, rfl, second, -⟩ := List.map_eq_cons_iff.1 others
  have found : tree.closure? 0 = some arrow := by rw [Scoping.closure?, closures]; rfl
  have entry : tree.closure? 1 = some twin := by rw [Scoping.closure?, closures]; rfl
  obtain ⟨named, later⟩ := alias_is_first_free_candidate setting laterTwin 0 arrow found
  refine ⟨arrow, twin, found, entry, named, second.trans first.symm, ?_⟩
  have result := later 1 twin entry (second.trans first.symm) Nat.zero_lt_one
  rwa [← List.map_take, show (analyze setting laterTwin).tree.bindAll.closures = _ from closures] at result

end Resumable
