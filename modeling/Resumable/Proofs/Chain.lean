import Resumable.Scope.Captures
import Mathlib.Data.List.Infix

/-! Chains of enclosing scopes. Where scopes come after the ones around them, a chain does not run out of fuel: it
is the scope followed by the chain of its parent. -/
namespace Resumable.Scoping
open List Option
variable {id parent outer source : ScopeIndex} {scope : Scope} {name : String} {resolution : Resolution}

def Parented (tree : Scoping) : Prop :=
  ∀ ⦃id parent : ScopeIndex⦄ ⦃scope : Scope⦄, tree.scope? id = some scope → scope.parent = some parent → parent < id

variable {tree : Scoping}

lemma lt_of_scope? (found : tree.scope? id = some scope) : id < tree.scopes.length := by
  obtain ⟨bound,_⟩ := List.getElem?_eq_some_iff.1 found
  exact bound

lemma scope?_of_lt (bound : id < tree.scopes.length) : ∃ scope, tree.scope? id = some scope :=
  ⟨_,getElem?_eq_getElem bound⟩

lemma chainOf_of_lt (parented : tree.Parented) (enough : id < fuel) : tree.chainOf fuel id = tree.chain id := by
  induction id using Nat.strongRecOn generalizing fuel with
  | ind id ih =>
    obtain ⟨fuel,rfl⟩ := Nat.exists_eq_add_one_of_ne_zero (Nat.ne_of_gt (Nat.zero_lt_of_lt enough))
    simp only [chain,chainOf]
    split
    · rename_i scope found
      split
      · rename_i parent up
        have before := parented found up
        rw [ih parent before (before.trans_le (Nat.le_of_lt_add_one enough)), ih parent before before]
      · rfl
    · rfl

lemma chain_of_parent (parented : tree.Parented) (found : tree.scope? id = some scope)
    (up : scope.parent = some parent) : tree.chain id = id :: tree.chain parent := by
  rw [chain,chainOf,found]
  simp only [up]
  rw [chainOf_of_lt parented (parented found up)]

lemma chain_of_orphan (found : tree.scope? id = some scope) (up : scope.parent = none) : tree.chain id = [id] := by
  rw [chain,chainOf,found]
  simp only [up]

section
variable (parented : tree.Parented)
include parented

lemma chain_eq (found : tree.scope? id = some scope) : tree.chain id = id :: (scope.parent.map tree.chain).getD [] := by
  cases up : scope.parent with
  | none => exact chain_of_orphan found up
  | some parent => exact chain_of_parent parented found up

lemma self_mem_chain (found : tree.scope? id = some scope) : id ∈ tree.chain id := by simp [chain_eq parented found]

lemma Parented.induction {motive : ScopeIndex → Prop} (missing : ∀ id, tree.scope? id = none → motive id)
    (orphan : ∀ id scope, tree.scope? id = some scope → scope.parent = none → motive id)
    (nested : ∀ id scope parent, tree.scope? id = some scope → scope.parent = some parent →
      motive parent → motive id) (id : ScopeIndex) : motive id := by
  induction id using Nat.strongRecOn with
  | ind id ih =>
    cases found : tree.scope? id with
    | none => exact missing id found
    | some scope =>
      cases up : scope.parent with
      | none => exact orphan id scope found up
      | some parent => exact nested id scope parent found up (ih parent (parented found up))

variable (member : outer ∈ tree.chain id)
include member

/-- What holds of a scope holds of those within it, if it is handed on from each scope to those opened there. -/
@[elab_as_elim] lemma Parented.within {motive : ScopeIndex → Prop}
    (here : ∀ scope, tree.scope? outer = some scope → motive outer)
    (hands : ∀ {id scope parent}, tree.scope? id = some scope → scope.parent = some parent →
      outer ∈ tree.chain parent → motive parent → motive id) : motive id := by
  induction id using parented.induction with
  | missing id found => simp [chain,chainOf,found] at member
  | orphan id scope found up =>
    rw [chain_of_orphan found up,mem_singleton] at member
    exact member ▸ here scope (member ▸ found)
  | nested id scope parent found up ih =>
    rw [chain_of_parent parented found up] at member
    rcases mem_cons.1 member with rfl | above
    · exact here scope found
    · exact hands found up above (ih above)

lemma exists_chain_eq_append :
    ∃ inner, tree.chain id = inner ++ tree.chain outer ∧ ∀ s ∈ inner, outer ∈ tree.chain s := by
  refine parented.within member (fun _ _ => ⟨[],rfl,by simp⟩) fun {id _ _} found up above ih => ?_
  obtain ⟨inner,equal,within⟩ := ih
  have chainEq := chain_of_parent parented found up
  refine ⟨id :: inner,by rw [chainEq,equal,cons_append],fun s mem => ?_⟩
  rcases mem_cons.1 mem with rfl | mem
  · exact chainEq ▸ mem_cons_of_mem _ above
  · exact within s mem

lemma scope?_of_mem_chain : ∃ scope, tree.scope? outer = some scope :=
  parented.within member (fun scope found => ⟨scope,found⟩) fun _ _ _ found => found

lemma le_of_mem_chain : outer ≤ id :=
  parented.within member (fun _ _ => le_rfl) fun found up _ le => le.trans (parented found up).le

lemma mem_chain_trans (above : further ∈ tree.chain outer) : further ∈ tree.chain id := by
  obtain ⟨inner,equal,_⟩ := exists_chain_eq_append parented member
  rw [equal]
  exact mem_append_right _ above

lemma parent_mem_chain (found : tree.scope? outer = some scope)
    (up : scope.parent = some parent) (valid : tree.scope? parent = some up') :
    parent ∈ tree.chain id := by
  refine mem_chain_trans parented member ?_
  rw [chain_of_parent parented found up]
  exact mem_cons_of_mem _ (self_mem_chain parented valid)

end

lemma liesWithin_iff : tree.liesWithin id outer = true ↔ outer ∈ tree.chain id := by simp [liesWithin]

lemma liesWithin_eq_false_iff : tree.liesWithin id outer = false ↔ outer ∉ tree.chain id := by simp [liesWithin]

/-! ### Resolution -/

lemma resolveIn_scope (found : tree.resolveIn name id = some resolution) : resolution.scope = id := by
  unfold resolveIn at found
  split at found
  · split at found
    · cases found
      rfl
    · obtain ⟨closure,_,rfl⟩ := map_eq_some_iff.1 found
      rfl
  · cases found

lemma resolve_eq (parented : tree.Parented) (found : tree.scope? id = some scope) (name : String) :
    tree.resolve id name = (tree.resolveIn name id).or (scope.parent.bind (tree.resolve · name)) := by
  simp only [resolve,chain_eq parented found]
  cases scope.parent <;> cases here : tree.resolveIn name id <;> simp [here]

section
variable (found : tree.resolve source name = some resolution)
include found

section
variable (parented : tree.Parented) (member : inside ∈ tree.chain source)
include parented member

/-- What is found outside of a scope on the way is found from that scope as well. -/
lemma resolve_inside (outside : inside ∉ tree.chain resolution.scope) : tree.resolve inside name = some resolution := by
  refine parented.within (motive := fun id => tree.resolve id name = some resolution → _) member (fun _ _ => id)
    (fun {id _ _} entry up above ih found => ih ?_) found
  rw [resolve_eq parented entry,up] at found
  cases here : tree.resolveIn name id with
  | none => rwa [here] at found
  | some hit =>
    rw [here] at found
    cases found
    rw [resolveIn_scope here,chain_of_parent parented entry up] at outside
    exact absurd (mem_cons_of_mem _ above) outside

lemma resolve_parent (entry : tree.scope? inside = some scope)
    (up : scope.parent = some parent) (outside : inside ∉ tree.chain resolution.scope) :
    tree.resolve parent name = some resolution := by
  have same := resolve_inside found parented member outside
  rw [resolve_eq parented entry,up] at same
  cases here : tree.resolveIn name inside with
  | none => rwa [here] at same
  | some hit =>
    rw [here] at same
    cases same
    exact absurd (self_mem_chain parented entry) (resolveIn_scope here ▸ outside)

end

lemma resolve_scope_mem_chain : resolution.scope ∈ tree.chain source := by
  obtain ⟨s,member,here⟩ := exists_of_findSome?_eq_some found
  exact resolveIn_scope here ▸ member

lemma resolveIn_of_resolve : tree.resolveIn name resolution.scope = some resolution := by
  obtain ⟨s,_,here⟩ := exists_of_findSome?_eq_some found
  exact (resolveIn_scope here).symm ▸ here

end

end Resumable.Scoping
