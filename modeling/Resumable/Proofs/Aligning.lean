import Resumable.Proofs.Tracing

/-! What the walk and the outline agree on. Scopes are opened in the same order, each where the outline has it, and
know the names of all frames in them. A closure belongs to the literal that opens its scope, and each reference to a
use of a name. -/
namespace Resumable
open Script List Scoping Builder
variable {change : Scope → Scope} {scope : Scope} {id parent s : ScopeIndex} {kind : ScopeRole} {owner : Span}

namespace Trace

variable {setting : Selecting} {place : Spot} {builder later : Builder} {outline after : Outline}

/-! ### What a trace keeps -/

section
variable (trace : Trace setting place builder outline later after)
include trace

lemma grows : builder.tree.Grows later.tree := by
  induction trace with
  | andThen _ _ one two => exact one.trans two
  | aside aside => exact aside.grows
  | uses => exact (record_extends ..).grows
  | frame _ _ _ ih => exact ih
  | nested _ _ _ _ _ _ ih => exact ((push_extends ..).grows.trans ih).trans (passUp_extends _).grows

lemma insides_grow : outline.insides <+: after.insides := by
  induction trace with
  | andThen _ _ one two => exact one.trans two
  | aside | uses => exact prefix_refl _
  | frame _ _ _ ih => exact (prefix_append _ _).trans ih
  | nested _ _ _ _ _ _ ih => exact ih

lemma complete (listed : inside ∈ after.insides) : inside ∈ outline.insides ∨
      ∀ frame ∈ inside.frames.head?, ∀ name ∈ frame.names, later.tree.Knows frame.owner name := by
  induction trace with
  | andThen _ second one two =>
    rcases two listed with old | known
    · exact (one old).imp_right fun known frame first name named => (known frame first name named).mono second.grows
    · exact .inr known
  | aside | uses => exact .inl listed
  | frame names known _ ih =>
    rcases ih listed with old | complete
    · rcases mem_append.1 old with older | new
      · exact .inl older
      · obtain rfl := mem_singleton.1 new
        refine .inr fun frame first => ?_
        obtain rfl := Option.some.inj first
        exact known
    · exact .inr complete
  | nested _ _ _ _ _ _ ih =>
    exact (ih listed).imp_right fun known frame first name named => (known frame first name named).passUp _

end
end Trace

/-! ### Frames and scopes -/

def Opening.outer (opening : Opening) : List Frame := (opening.outside.map Spot.frames).getD []

/-- The frames around a place are those of its scope, then those around the scope. What is around a
frame is the same wherever it is seen from. -/
structure Spot.Aligned (place : Spot) (outline : Outline) : Prop where
  parts : ∃ opening inner, outline.openings[place.scope]? = some opening ∧
    place.frames = inner ++ opening.outer ∧ ∀ frame ∈ inner, frame.owner = place.scope
  nested : ∀ {frame : Frame} {rest : List Frame}, frame :: rest <:+ place.frames →
    outline.insides[frame.id]? = some ⟨frame.owner,frame :: rest⟩

structure Outline.Aligned (outline : Outline) : Prop where
  opened : ∀ {k : Nat} {opening : Opening} {place : Spot}, outline.openings[k]? = some opening →
    opening.outside = some place → place.scope < k ∧ place.Aligned outline
  used : ∀ use ∈ outline.uses, use.place.Aligned outline

section Aligned
variable {place : Spot} {outline after : Outline}

section
variable (aligned : place.Aligned outline)
include aligned

lemma Spot.Aligned.mono (openings : outline.openings <+: after.openings) (insides : outline.insides <+: after.insides) :
    place.Aligned after := by
  obtain ⟨opening,inner,found,parts⟩ := aligned.parts
  exact ⟨⟨opening,inner,Trace.getElem?_of_grown openings found,parts⟩,
    fun around => Trace.getElem?_of_grown insides (aligned.nested around)⟩

lemma Spot.Aligned.enter (names : List String) :
    (outline.enter place names).Aligned (outline.addFrame place names) := by
  obtain ⟨opening,inner,found,parts,owned⟩ := aligned.parts
  refine ⟨⟨opening,⟨outline.insides.length,place.scope,names⟩ :: inner,found,?_,?_⟩, fun {frame rest} around => ?_⟩
  · rw [Outline.enter,parts,cons_append]
  · intro frame mem
    rcases mem_cons.1 mem with rfl | old
    · rfl
    · exact owned frame old
  · rcases suffix_cons_iff.1 around with new | old
    · cases new
      exact getElem?_concat_length
    · exact Trace.getElem?_of_grown (prefix_append _ _) (aligned.nested old)

lemma Spot.Aligned.inside (construct : Construct) :
    (outline.inside place).Aligned (outline.addOpening place construct) :=
  ⟨⟨⟨construct,some place⟩,[],getElem?_concat_length,rfl,nofun⟩,aligned.nested⟩

lemma Spot.Aligned.lt : place.scope < outline.openings.length := by
  obtain ⟨_,_,found,_⟩ := aligned.parts
  exact (List.getElem?_eq_some_iff.1 found).1

end

section
variable (aligned : outline.Aligned)
include aligned

lemma Outline.Aligned.addFrame (place : Spot) (names : List String) : (outline.addFrame place names).Aligned where
  opened found outside :=
    have ⟨low,here⟩ := aligned.opened found outside
    ⟨low,here.mono (prefix_refl _) (prefix_append _ _)⟩
  used use mem := (aligned.used use mem).mono (prefix_refl _) (prefix_append _ _)

lemma Outline.Aligned.addUse (here : place.Aligned outline)
    (position : Position) (name : Option String) (span : Span) : (outline.addUse place position name span).Aligned := by
  refine ⟨fun found outside => ?_,fun use mem => ?_⟩
  · have ⟨low,around⟩ := aligned.opened found outside
    exact ⟨low,around.mono (prefix_refl _) (prefix_refl _)⟩
  · rcases mem_append.1 mem with old | new
    · exact (aligned.used use old).mono (prefix_refl _) (prefix_refl _)
    · rw [mem_singleton.1 new]
      exact here.mono (prefix_refl _) (prefix_refl _)

lemma Outline.Aligned.addOpening (here : place.Aligned outline)
    (construct : Construct) : (outline.addOpening place construct).Aligned where
  opened {k opening other} found outside := by
    have grown : outline.openings <+: (outline.addOpening place construct).openings := prefix_append _ _
    rcases getElem?_concat_cases found with old | ⟨rfl,rfl⟩
    · obtain ⟨low,here⟩ := aligned.opened old outside
      exact ⟨low,here.mono grown (prefix_refl _)⟩
    · cases outside
      exact ⟨here.lt,here.mono grown (prefix_refl _)⟩
  used use mem := (aligned.used use mem).mono (prefix_append _ _) (prefix_refl _)

end

lemma Trace.aligned (trace : Trace setting place builder outline later after) (aligned : outline.Aligned)
    (here : place.Aligned outline) : after.Aligned := by
  induction trace with
  | andThen first _ one two => exact two (one aligned here) (here.mono first.openings_grow first.insides_grow)
  | aside => exact aligned
  | uses => exact aligned.addUse here ..
  | frame names _ _ ih => exact ih (aligned.addFrame ..) (here.enter names)
  | nested _ _ construct _ _ _ ih => exact ih (aligned.addOpening here construct) (here.inside construct)

end Aligned

/-! ### Scopes and their parents -/

structure Linked (tree : Scoping) (outline : Outline) : Prop where
  counted : tree.scopes.length = outline.openings.length
  parents : ∀ {k : Nat} {scope : Scope} {opening : Opening}, tree.scope? k = some scope →
    outline.openings[k]? = some opening → scope.parent = opening.outside.map Spot.scope

section Linked
variable {setting : Selecting} {place : Spot} {builder later : Builder} {tree other : Scoping} {outline after : Outline}

lemma Linked.of_grows (linked : Linked tree outline) (grows : tree.Grows other)
    (length : other.scopes.length = tree.scopes.length) : Linked other outline := by
  refine ⟨length.trans linked.counted,fun found opened => ?_⟩
  obtain ⟨earlier,before,same⟩ := grows.earlier length found
  rw [same.parent]
  exact linked.parents before opened

lemma Linked.push (linked : Linked builder.tree outline) (here : builder.current = place.scope)
    (kind : ScopeRole) (owner : Span) (construct : Construct) :
    Linked (builder.push kind owner).tree (outline.addOpening place construct) := by
  refine ⟨by simp [Builder.push,Scoping.openScope,Outline.addOpening,linked.counted],
    fun {k scope opening} found opened => ?_⟩
  rcases scope?_openScope_cases found with ⟨rfl,rfl⟩ | ⟨before,_, entry,rfl⟩
  · rw [linked.counted] at opened
    obtain rfl := Option.some.inj (List.getElem?_concat_length.symm.trans opened)
    exact congrArg some here
  · refine (linked.parents entry ?_ :)
    rwa [Outline.addOpening,getElem?_append_left] at opened
    exact linked.counted ▸ lt_of_scope? entry

/-- What is the case after a trace, which has come back to the scope that it started in. -/
structure Stays (builder later : Builder) (after : Outline) : Prop where
  linked : Linked later.tree after
  current : later.current = builder.current

lemma Trace.stays (trace : Trace setting place builder outline later after)
    (linked : Linked builder.tree outline) (here : builder.current = place.scope) :
    Stays builder later after := by
  induction trace with
  | andThen _ _ one two =>
    have first := one linked here
    have second := two first.linked (first.current.trans here)
    exact ⟨second.linked,second.current.trans first.current⟩
  | aside aside => exact ⟨linked.of_grows aside.grows aside.length,aside.current⟩
  | @uses _ _ _ _ mention position span _ =>
    have same := linked.of_grows (record_extends mention position span).grows (length_updateScope ..)
    exact ⟨⟨same.counted,same.parents⟩,rfl⟩
  | frame _ _ _ ih => exact ih ⟨linked.counted,linked.parents⟩ here
  | nested kind owner construct _ _ trace ih =>
    have inner := ih (linked.push here kind owner construct) linked.counted
    exact ⟨inner.linked.of_grows (passUp_extends _).grows (length_passUp _),
      ((push_openIn _ kind owner).later trace.grows inner.current).pop_current⟩

/-! ### Closures and what they are made of -/

/-- A closure stands in an outline if the scope that it has is opened by what it is made of. -/
def Closure.StandsIn (closure : Closure) (outline : Outline) : Prop :=
  ∃ opening candidate, outline.openings[closure.scope]? = some opening ∧
    opening.construct.makes candidate ∧ closure.span = candidate.span ∧ closure.kind = candidate.kind

variable {closure : Closure}

lemma Closure.StandsIn.mono (stands : closure.StandsIn outline)
    (openings : outline.openings <+: after.openings) : closure.StandsIn after := by
  obtain ⟨opening,candidate,found,rest⟩ := stands
  exact ⟨opening,candidate,Trace.getElem?_of_grown openings found,rest⟩

lemma Trace.closures (trace : Trace setting place builder outline later after)
    (linked : Linked builder.tree outline) (here : builder.current = place.scope)
    (listed : closure ∈ later.tree.closures) :
    closure ∈ builder.tree.closures ∨ closure.StandsIn after := by
  induction trace with
  | andThen first second one two =>
    have stays := first.stays linked here
    rcases two stays.linked (stays.current.trans here) listed with old | new
    · exact (one linked here old).imp_right fun stands => stands.mono second.openings_grow
    · exact .inr new
  | aside _ made =>
    refine (made closure listed).imp_right fun ⟨own,opening,candidate,opened,rest⟩ => ⟨opening,candidate,?_,rest⟩
    rw [own,here]
    exact opened
  | uses => exact .inl listed
  | frame _ _ _ ih => exact ih ⟨linked.counted,linked.parents⟩ here listed
  | nested kind owner construct _ _ _ ih =>
    rw [pop,closures_passUp] at listed
    exact ih (linked.push here kind owner construct) linked.counted listed

lemma Trace.keeps (trace : Trace setting place builder outline later after) :
    builder.tree.closures ⊆ later.tree.closures := by
  induction trace with
  | andThen _ _ one two => exact List.Subset.trans one two
  | aside _ _ kept => exact kept
  | uses => exact Subset.refl _
  | frame _ _ _ ih => exact ih
  | nested _ _ _ _ _ _ ih =>
    rw [pop,closures_passUp]
    exact ih

/-- If every name is selected, what is offered becomes a closure. -/
lemma Trace.offered (trace : Trace setting place builder outline later after)
    (counted : builder.tree.scopes.length = outline.openings.length) (every : ∀ name, setting.selects name = true)
    {opening : Opening} (offered : opening.construct.isOffered = true) (opened : after.openings[s]? = some opening) :
    outline.openings[s]? = some opening ∨ ∃ closure ∈ later.tree.closures, closure.scope = s := by
  induction trace with
  | andThen first second one two =>
    rcases two (first.counted counted) opened with old | made
    · exact (one counted old).imp_right fun ⟨closure,listed,is⟩ => ⟨closure,second.keeps listed,is⟩
    · exact .inr made
  | aside | uses => exact .inl opened
  | frame _ _ _ ih => exact ih counted opened
  | nested kind owner construct _ offers trace ih =>
    rw [pop,closures_passUp]
    rcases ih (by simp [push,openScope,Outline.addOpening,counted]) opened with old | made
    · rcases getElem?_concat_cases old with old | ⟨rfl,rfl⟩
      · exact .inl old
      · obtain ⟨closure,listed,own⟩ := offers every offered
        exact .inr ⟨closure,listed,own.trans (by rw [push_current,counted])⟩
    · exact .inr made

/-! ### References and uses -/

structure Reference.StandsAt (reference : Reference) (use : Use) : Prop where
  span : reference.span = use.span
  position : reference.position = use.position
  scope : reference.scope = use.place.scope
  named : ∀ name, reference.mention = .identifier name → use.name = some name

/-- A reference that stands for a use as what it is: `this` for itself, `arguments` of some function for
that name, and a variable for its name. -/
structure Reference.StandsFor (reference : Reference) (use : Use) : Prop extends reference.StandsAt use where
  this : use.name = none ↔ ∃ owner, reference.mention = .this owner
  arguments : ∀ owner, reference.mention = .arguments owner → use.name = some "arguments"

/-- References that were added to a scope for the uses that were added to the outline. -/
structure Adds (builder later : Builder) (outline after : Outline) : Prop where
  added : ∃ references uses, later.tree.referencesIn builder.current =
      builder.tree.referencesIn builder.current ++ references ∧
    after.uses = outline.uses ++ uses ∧ references.Forall₂ Reference.StandsFor uses
  others : ∀ s, s < builder.tree.scopes.length → s ≠ builder.current →
    later.tree.referencesIn s = builder.tree.referencesIn s

lemma Adds.nothing (same : ∀ s, later.tree.referencesIn s = builder.tree.referencesIn s) :
    Adds builder later outline outline :=
  ⟨⟨[],[],by rw [same,append_nil],by rw [append_nil],.nil⟩,fun s _ _ => same s⟩

lemma Adds.record {span : Span} (inside : builder.current < builder.tree.scopes.length)
    (here : builder.current = place.scope) (reads : builder.Reads name mention) :
    Adds builder (builder.record mention position span) outline (outline.addUse place position name span) := by
  refine ⟨⟨[⟨mention,span,builder.current,position⟩],[⟨name,span,position,place⟩],?_,rfl, .cons ?_ .nil⟩,?_⟩
  · exact referencesIn_updateScope_append (fun _ => rfl) inside
  · cases mention with
    | this owner => exact ⟨⟨rfl,rfl,here,nofun⟩,⟨fun _ => ⟨owner,rfl⟩,fun _ => reads.1⟩,nofun⟩
    | identifier text =>
      refine ⟨⟨rfl,rfl,here,fun other is => ?_⟩,⟨fun none => ?_,nofun⟩,nofun⟩
      · cases is
        exact reads.1
      · cases reads.1.symm.trans none
    | arguments owner =>
      refine ⟨⟨rfl,rfl,here,nofun⟩,⟨fun none => ?_,nofun⟩,fun _ _ => reads.1⟩
      cases reads.1.symm.trans none
  · exact fun s _ other => referencesIn_updateScope_ne _ other.symm

lemma Adds.andThen (stays : middle.current = builder.current)
    (grown : builder.tree.scopes.length ≤ middle.tree.scopes.length)
    (first : Adds builder middle outline between) (second : Adds middle later between after) :
    Adds builder later outline after := by
  obtain ⟨references,uses,added,used,stand⟩ := first.added
  obtain ⟨more,others,addedMore,usedMore,standMore⟩ := second.added
  rw [stays] at addedMore
  refine ⟨⟨references ++ more,uses ++ others,?_,?_,rel_append stand standMore⟩,?_⟩
  · rw [addedMore,added,append_assoc]
  · rw [usedMore,used,append_assoc]
  · intro s low other
    rw [second.others s (low.trans_le grown) (stays ▸ other),first.others s low other]

lemma Adds.nested (inside : builder.current < builder.tree.scopes.length)
    (grows : (builder.push kind owner).tree.Grows later.tree)
    (stays : later.current = builder.tree.scopes.length)
    (inner : Adds (builder.push kind owner) later (outline.addOpening place construct) after) :
    Adds builder later.pop outline after := by
  obtain ⟨new,found,up,-,none,-⟩ := scope?_openScope_new builder.tree kind builder.current owner
  obtain ⟨last, entry,same⟩ := grows found
  obtain ⟨references,uses,added,used,stand⟩ := inner.added
  have here : later.tree.scope? later.current = some last := stays ▸ entry
  have closed : later.pop.tree = later.tree.updateScope builder.current fun outer =>
      { outer with references := outer.references ++ last.references } := by
    simp only [pop,passUp,here,same.parent.trans up]
  have all : last.references = references := by
    have fresh : (builder.push kind owner).tree.referencesIn (builder.push kind owner).current = [] := by
      change (referencesIn _ builder.tree.scopes.length) = []
      rw [referencesIn]
      change ((scope? (builder.tree.openScope kind builder.current owner).2 _).map _).getD [] = []
      rw [found]
      exact none
    rw [fresh,nil_append,push_current,← stays,referencesIn,here] at added
    exact added
  have old (s : ScopeIndex) (low : s < builder.tree.scopes.length) :
      later.tree.referencesIn s = builder.tree.referencesIn s := by
    rw [inner.others s (by rw [length_push]; exact Nat.lt_succ_of_lt low) low.ne]
    exact referencesIn_openScope _ _ _ low
  refine ⟨⟨references,uses,?_,used,stand⟩,fun s low other => ?_⟩
  · rw [closed,referencesIn_updateScope_append (fun _ => rfl),old _ inside,all]
    refine inside.trans_le (le_trans ?_ grows.length_le)
    rw [length_push]
    exact Nat.le_succ _
  · rw [closed,referencesIn_updateScope_ne _ other.symm,old s low]

lemma Trace.adds (trace : Trace setting place builder outline later after)
    (linked : Linked builder.tree outline) (here : builder.current = place.scope)
    (inside : builder.current < builder.tree.scopes.length) : Adds builder later outline after := by
  induction trace with
  | andThen first second one two =>
    have stays := first.stays linked here
    have grown := first.grows.length_le
    exact .andThen stays.current grown (one linked here inside)
      (two stays.linked (stays.current.trans here) (stays.current ▸ inside.trans_le grown))
  | aside aside => exact .nothing aside.references
  | uses position span reads => exact .record inside here reads
  | frame _ _ _ ih =>
    have inner := ih ⟨linked.counted,linked.parents⟩ here inside
    exact ⟨inner.added,inner.others⟩
  | nested kind owner construct _ _ trace ih =>
    have opened := linked.push here kind owner construct
    exact .nested inside trace.grows (trace.stays opened linked.counted).current
      (ih opened linked.counted (by rw [length_push]; exact Nat.lt_succ_self _))

end Linked
end Resumable
