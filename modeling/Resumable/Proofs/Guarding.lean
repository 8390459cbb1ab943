import Resumable.Proofs.Aliases

/-! What walks leave that keep to a guard. They declare only names that the code binds, make closures of what it
declares, and list exports of top-level statements only. -/
namespace Resumable
open Script List Scoping

section
variable {closure : Closure} {tree : Scoping} {guard : Guard} {site : Site}

namespace Guard

def AllowsScope (guard : Guard) (scope : Scope) : Prop := ∀ name ∈ scope.declarations, guard.admits (.binding name)

/-- A closure that is made of something that a guard allows. -/
def AllowsClosure (guard : Guard) (closure : Closure) : Prop :=
  ∃ lists site candidate, guard.Makes lists site candidate ∧ closure.context = site.context ∧
    closure.name = candidate.ownName.or site.name ∧ closure.hasOwnName = candidate.ownName.isSome ∧
    closure.hoistPoints = hoistPoints lists site.context

end Guard

def Scoping.Keeps (tree : Scoping) (guard : Guard) : Prop :=
  ∀ ⦃s : ScopeIndex⦄ ⦃scope : Scope⦄, tree.scope? s = some scope → guard.AllowsScope scope

section
variable (keeps : tree.Keeps guard)
include keeps

lemma Scoping.Keeps.updateScope (id : ScopeIndex)
    (allowed : ∀ scope, guard.AllowsScope scope → guard.AllowsScope (change scope)) :
    (tree.updateScope id change).Keeps guard := by
  intro s scope found
  obtain ⟨before, entry,rfl⟩ := exists_of_scope?_updateScope found
  split
  · exact allowed before (keeps entry)
  · exact keeps entry

lemma Scoping.Keeps.openScope (kind : ScopeRole) (parent : ScopeIndex) (owner : Span) :
    (tree.openScope kind parent owner).2.Keeps guard := by
  intro s scope found
  rcases scope?_openScope_cases found with ⟨-,rfl⟩ | ⟨before,_, entry,rfl⟩
  · exact nofun
  · exact fun name declared => keeps entry name declared

lemma Scoping.Keeps.declare (id : ScopeIndex) (allowed : guard.admits (.binding name)) :
    (tree.declare id name).Keeps guard := by
  refine keeps.updateScope id fun scope old => ?_
  split
  · exact old
  · intro other listed
    rcases mem_append.1 listed with before | last
    · exact old other before
    · exact mem_singleton.1 last ▸ allowed

lemma Scoping.Keeps.passUp (id : ScopeIndex) : (tree.passUp id).Keeps guard := by
  unfold Scoping.passUp
  split
  · split
    · exact keeps.updateScope _ fun _ old => old
    · exact keeps
  · exact keeps

end

structure Builder.Keeps (guard : Guard) (builder : Builder) : Prop where
  scopes : builder.tree.Keeps guard
  made : ∀ closure ∈ builder.tree.closures, guard.AllowsClosure closure
  listed : ∀ name ∈ builder.exportedNames, guard.lists name

variable {setting : Selecting} {builder : Builder}

lemma Builder.Keeps.register (keeps : builder.Keeps guard)
    (allowed : guard.Makes builder.lists site candidate) (parent : ScopeIndex) :
    (register setting site candidate parent builder).2.Keeps guard := by
  refine ⟨?_,fun closure listed => ?_,?_⟩
  · unfold Resumable.register
    dsimp only
    split
    · exact keeps.scopes
    · refine Keeps.updateScope ?_ _ fun _ old => old
      exact Keeps.updateScope keeps.scopes _ fun _ old => old
  · rcases register_closures setting site candidate parent builder with same | ⟨chosen,-,closures,-⟩
    · exact keeps.made closure (same ▸ listed)
    rw [closures] at listed
    rcases mem_append.1 listed with old | new
    · exact keeps.made closure old
    · rw [mem_singleton.1 new]
      exact ⟨builder.lists,site,candidate,allowed,rfl,rfl,rfl,rfl⟩
  · unfold Resumable.register
    dsimp only
    split <;> exact keeps.listed

lemma Walk.keeps (walk : Walk setting nests guard builder later) (keeps : builder.Keeps guard) : later.Keeps guard := by
  have popped {inside : Builder} (keeps : inside.Keeps guard) : inside.pop.Keeps guard :=
    ⟨keeps.scopes.passUp _,by rw [Builder.pop,closures_passUp]; exact keeps.made,keeps.listed⟩
  induction walk with
  | done => exact keeps
  | andThen _ _ one two => exact two (one keeps)
  | declares scope name allowed => exact ⟨keeps.scopes.declare scope allowed,keeps.made,keeps.listed⟩
  | records => exact ⟨keeps.scopes.updateScope _ fun _ old => old,keeps.made,keeps.listed⟩
  | imports id allowed =>
    exact ⟨(keeps.scopes.declare _ allowed).updateScope _ fun _ old => old,keeps.made,keeps.listed⟩
  | exports id allowed =>
    refine ⟨by rw [Builder.exportName_tree]; exact keeps.scopes,
      by rw [Builder.exportName_tree]; exact keeps.made,fun name listed => ?_⟩
    unfold Builder.exportName at listed
    split at listed
    · exact keeps.listed name listed
    · rcases mem_append.1 listed with old | new
      · exact keeps.listed name old
      · exact mem_singleton.1 new ▸ allowed
  | list starts _ ih =>
    have inner := ih ⟨keeps.scopes,keeps.made,keeps.listed⟩
    exact ⟨inner.scopes,inner.made,inner.listed⟩
  | nested kind owner _ ih => exact popped (ih ⟨keeps.scopes.openScope ..,keeps.made,keeps.listed⟩)
  | closure kind owner site candidate suits _ first _ one two =>
    have entered := one ⟨keeps.scopes.openScope ..,keeps.made,keeps.listed⟩
    exact popped (two (entered.register (first.lists ▸ suits.makes) _))

end

/-! ### Programs -/

variable (setting : Selecting) (program : Program)

lemma analyze_keeps : (analyze setting program).tree.Keeps program.guard ∧
    (∀ closure ∈ (analyze setting program).tree.closures, program.guard.AllowsClosure closure) ∧
    ∀ name ∈ (analyze setting program).exportedNames, name ∈ program.listedNames := by
  have start : ({ tree := ofProgram program.span } : Builder).Keeps program.guard := by
    refine ⟨fun s scope found => ?_,forall_mem_nil _,forall_mem_nil _⟩
    simp only [ofProgram,scope?,List.getElem?_singleton] at found
    split at found
    · cases found
      exact forall_mem_nil _
    · cases found
  have keeps := (walk_of_program setting program False.elim).keeps start
  exact ⟨keeps.scopes,keeps.made,keeps.listed⟩

variable {setting program} {closure : Closure}

lemma allowed_closure (listed : closure ∈ (analyze setting program).tree.bindAll.closures) :
    program.guard.AllowsClosure closure := by
  obtain ⟨i,found⟩ := mem_iff_getElem?.1 listed
  obtain ⟨_,_, entry⟩ := capturing_of_bare_eq (bindAll_bare _) found
  exact ((analyze_keeps setting program).2.1 _ (mem_of_getElem? entry) :)

lemma allowed_scope (found : (analyze setting program).tree.bindAll.scope? s = some scope) :
    program.guard.AllowsScope scope := by
  obtain ⟨_, entry⟩ := scope?_of_bare_eq (bindAll_bare _) found
  exact fun name declared => (analyze_keeps setting program).1 entry name declared

end Resumable
