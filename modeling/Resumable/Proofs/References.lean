import Resumable.Proofs.Surveying

/-! The references that scopes list. A scope that is closed passes its references on to the one around it, so in the
end each scope lists what was recorded in it and in those nested in it, in the order of recording. -/
namespace Resumable.Builder
open Script Scoping List

/-- A run that closes each scope that it opens, and no other. -/
inductive Run where
  | done
  | record (mention : Mention) (position : Position) (span : Span) (rest : Run)
  | nested (kind : ScopeRole) (owner : Span) (inner rest : Run)

def Run.after : Run → Builder → Builder
  | done, builder => builder
  | record mention position span rest, builder => rest.after (builder.record mention position span)
  | nested kind owner inner rest, builder => rest.after (inner.after (builder.push kind owner)).pop

/-- What is recorded in the course of a run, each reference with the scope that is open. -/
def Run.log : Run → Builder → List (ScopeIndex × Reference)
  | done, _ => []
  | record mention position span rest, builder =>
    (builder.current, ⟨mention,span,builder.current,position⟩) :: rest.log (builder.record mention position span)
  | nested kind owner inner rest, builder =>
    inner.log (builder.push kind owner) ++ rest.log (inner.after (builder.push kind owner)).pop

/-- The references of a log that are made in a scope or in one that is nested in it. -/
def within (tree : Scoping) (s : ScopeIndex) (entries : List (ScopeIndex × Reference)) : List Reference :=
  (entries.filter fun entry => tree.liesWithin entry.1 s).map Prod.snd

/-- What a run leaves: the scope that is open lists all that was recorded, and those opened since list what was
recorded in them. -/
structure Leaves (setting : Selecting) (builder : Builder) (entries : List (ScopeIndex × Reference))
    (later : Builder) : Prop where
  walk : Walk setting False .free builder later
  here : later.tree.referencesIn builder.current = builder.tree.referencesIn builder.current ++ entries.map Prod.snd
  opened : ∀ {s}, builder.tree.scopes.length ≤ s → later.tree.referencesIn s = within later.tree s entries
  /-- Entries are made in the scope that is open, or in one that was opened in it. -/
  made : ∀ entry ∈ entries, entry.1 < later.tree.scopes.length ∧ entry.2.scope = entry.1 ∧
    builder.current ∈ later.tree.chain entry.1 ∧
    ∀ s ∈ later.tree.chain entry.1, builder.tree.scopes.length ≤ s ∨ s ∈ builder.tree.chain builder.current

variable {setting : Selecting} {builder middle later : Builder} {s : ScopeIndex}
  {entries more : List (ScopeIndex × Reference)} {tree other : Scoping}

lemma within_eq_nil (entries : List (ScopeIndex × Reference))
    (outside : ∀ entry ∈ entries, s ∉ tree.chain entry.1) : within tree s entries = [] := by
  simpa [within,liesWithin_iff] using outside

lemma within_eq_all (inside : ∀ entry ∈ entries, s ∈ tree.chain entry.1) :
    within tree s entries = entries.map Prod.snd := by
  rw [within,filter_eq_self.2 fun entry listed => liesWithin_iff.2 (inside entry listed)]

lemma within_congr (same : ∀ entry ∈ entries, other.chain entry.1 = tree.chain entry.1) :
    within other s entries = within tree s entries := by
  unfold within liesWithin
  rw [filter_congr fun entry listed => by rw [same entry listed]]

lemma referencesIn_of_le (beyond : tree.scopes.length ≤ s) : tree.referencesIn s = [] := by
  simp [referencesIn,scope?,getElem?_eq_none beyond]

section
variable (sound : builder.tree.Sound False builder.current)
include sound

lemma Leaves.trans (one : Leaves setting builder entries middle) (two : Leaves setting middle more later) :
    Leaves setting builder (entries ++ more) later := by
  have between := one.walk.sound sound
  have current := one.walk.frame.2
  have longer := one.walk.frame.1.grows.length_le
  have same (entry) (listed : entry ∈ entries) : later.tree.chain entry.1 = middle.tree.chain entry.1 :=
    two.walk.chain_eq between (one.made entry listed).1
  refine ⟨one.walk.andThen two.walk,?_,fun {s} beyond => ?_,fun entry listed => ?_⟩
  · rw [← current,two.here,current,one.here,map_append,append_assoc]
  · rw [within,filter_append,map_append,← within,← within,within_congr same]
    rcases Nat.lt_or_ge s middle.tree.scopes.length with low | high
    · have after : middle.current < s := current.symm ▸ sound.inside.trans_le beyond
      rw [two.walk.referencesIn_eq low after.ne',one.opened beyond,within_eq_nil more,append_nil]
      intro entry listed around
      rcases (two.made entry listed).2.2.2 s around with high | before
      · exact absurd low high.not_gt
      · exact absurd after (le_of_mem_chain between.parented before).not_gt
    · rw [two.opened high,within_eq_nil entries,nil_append]
      intro entry listed around
      exact absurd ((le_of_mem_chain between.parented around).trans_lt (one.made entry listed).1)
        high.not_gt
  · rcases mem_append.1 listed with listed | listed
    · obtain ⟨low,made⟩ := one.made entry listed
      rw [same entry listed]
      exact ⟨low.trans_le two.walk.frame.1.grows.length_le,made⟩
    · obtain ⟨low,scope,around,bounds⟩ := two.made entry listed
      rw [current] at around bounds
      rw [one.walk.chain_eq sound sound.inside] at bounds
      exact ⟨low,scope,around,fun s member => (bounds s member).imp_left longer.trans⟩

lemma leaves_record (mention : Mention) (position : Position) (span : Span) :
    Leaves setting builder [(builder.current, ⟨mention,span,builder.current,position⟩)]
      (builder.record mention position span) := by
  have chain : (builder.record mention position span).tree.chain builder.current =
      builder.tree.chain builder.current := chain_updateScope _ (fun _ => by rfl) _
  refine ⟨record_free ..,referencesIn_updateScope_append (fun _ => rfl) sound.inside,fun beyond => ?_,?_⟩
  · have after := sound.inside.trans_le beyond
    rw [within_eq_nil]
    · exact (referencesIn_updateScope_ne _ after.ne).trans (referencesIn_of_le beyond)
    · simpa only [mem_singleton,forall_eq,chain] using fun around => beyond.not_gt (sound.below _ around)
  · simp only [mem_singleton,forall_eq,chain]
    exact ⟨by simpa [record,addReference] using sound.inside,trivial,sound.self_mem,fun _ => .inr⟩

lemma leaves_nested (kind : ScopeRole) (owner : Span)
    (leaves : Leaves setting (builder.push kind owner) entries later) : Leaves setting builder entries later.pop := by
  have entered := Inside.push sound kind owner
  have inside := entered.walk leaves.walk
  have opened := inside.toOpenIn
  have all : later.tree.referencesIn builder.tree.scopes.length = entries.map Prod.snd :=
    leaves.here.trans (by rw [push_current,referencesIn_push,nil_append])
  have low := sound.inside.trans_le inside.later.grows.length_le
  refine ⟨.nested kind owner leaves.walk,?_,fun {s} beyond => ?_,fun entry listed => ?_⟩
  · rw [opened.pop_tree,referencesIn_updateScope_append (fun _ => rfl) low,inside.kept,all]
  · rw [opened.pop_tree,referencesIn_updateScope_ne _ (sound.inside.trans_le beyond).ne,← opened.pop_tree,
      within_congr fun entry _ => opened.pop_chain entry.1]
    rcases eq_or_lt_of_le beyond with rfl | above
    · exact all.trans (within_eq_all fun entry listed => (leaves.made entry listed).2.2.1).symm
    · exact leaves.opened ((length_push kind owner).trans_le above)
  · obtain ⟨there,scope,around,bounds⟩ := leaves.made entry listed
    rw [opened.pop_chain,opened.pop_length]
    obtain ⟨new,found,up⟩ := opened.up
    obtain ⟨outer,outerFound⟩ := scope?_of_lt low
    refine ⟨there,scope,parent_mem_chain inside.sound.parented around found up outerFound,fun s member => ?_⟩
    rcases bounds s member with above | outside
    · exact .inl ((Nat.le_succ _).trans ((length_push kind owner).symm.trans_le above))
    · rw [push_current,entered.own_chain,entered.outer_chain] at outside
      exact (mem_cons.1 outside).imp_left Eq.ge

end

lemma Run.leaves (run : Run) (sound : builder.tree.Sound False builder.current) :
    Leaves setting builder (run.log builder) (run.after builder) := by
  induction run generalizing builder with
  | done => exact ⟨.done,by simp [log,after],fun beyond => referencesIn_of_le beyond,nofun⟩
  | record mention position span rest ih =>
    have first : Leaves setting builder _ _ := leaves_record sound mention position span
    exact first.trans sound (ih (first.walk.sound sound))
  | nested kind owner inner rest inners others =>
    have first : Leaves setting builder _ _ := leaves_nested sound kind owner (inners (sound.openScope kind owner))
    exact first.trans sound (others (first.walk.sound sound))

/-- Once all scopes are closed, each one lists what was recorded in it and in those nested in it, in order; the
program lists all. So a reference is listed by the scope that it is made in and those around it only. -/
theorem references_are_recorded (program : Span) (run : Run) :
    let start : Builder := { tree := Scoping.ofProgram program }
    let final := run.after start
    final.current = root ∧
    (∀ s scope, final.tree.scope? s = some scope →
      scope.references = ((run.log start).filter fun entry => final.tree.liesWithin entry.1 s).map Prod.snd ∧
      ∀ reference ∈ scope.references, final.tree.liesWithin reference.scope s = true) ∧
    final.tree.referencesIn root = (run.log start).map Prod.snd := by
  intro start final
  have sound : start.tree.Sound False start.current := ofProgram_sound program
  have leaves : Leaves ⟨[],fun _ => false⟩ start _ final := run.leaves sound
  refine ⟨leaves.walk.frame.2,fun s scope found => ?_,leaves.here⟩
  have listed : scope.references = within final.tree s (run.log start) := by
    have here : final.tree.referencesIn s = scope.references := by rw [referencesIn,found]; rfl
    rw [← here]
    rcases Nat.eq_zero_or_pos s with rfl | beyond
    · exact leaves.here.trans (within_eq_all fun entry listed => (leaves.made entry listed).2.2.1).symm
    · exact leaves.opened beyond
  refine ⟨listed,fun reference member => ?_⟩
  rw [listed] at member
  obtain ⟨entry,kept,rfl⟩ := mem_map.1 member
  obtain ⟨listed,inside⟩ := mem_filter.1 kept
  rw [(leaves.made entry listed).2.1]
  exact inside

end Resumable.Builder
