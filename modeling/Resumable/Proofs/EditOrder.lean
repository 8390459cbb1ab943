import Resumable.Hoisting.Output
import Mathlib.Data.List.Perm.Subperm

/-! Edits in order of position. A list that passes the check is sorted, each edit ends before the
next one starts, and two edits that may stand in either order stand as they were found. -/
namespace Resumable
open List Bool Except
variable {α : Type} {file : String} {values : List α}

namespace Edit

lemma before_trans (a b c : Edit) (ab : a.before b = true) (bc : b.before c = true) : a.before c = true := by
  simp only [before,or_eq_true,and_eq_true,decide_eq_true_eq,beq_iff_eq] at *
  omega

lemma before_total (a b : Edit) : (a.before b || b.before a) = true := by
  simp only [before,or_eq_true,and_eq_true,decide_eq_true_eq,beq_iff_eq]
  omega

variable {a b : Edit} {edits sorted : List Edit}

lemma start_le_of_before (ordered : a.before b = true) : a.start ≤ b.start := by
  simp only [before,or_eq_true,and_eq_true,decide_eq_true_eq,beq_iff_eq] at ordered
  omega

lemma sort_pairwise (edits : List Edit) : (sort edits).Pairwise fun a b => a.before b = true :=
  pairwise_mergeSort before_trans before_total edits

lemma pairwise_of_clash?_eq_none (clear : clash? edits = none) (sorted : edits.Pairwise fun a b => a.before b = true) :
    edits.Pairwise fun a b => a.stop ≤ b.start := by
  induction edits with
  | nil => exact .nil
  | cons first rest ih =>
    obtain ⟨ahead,restSorted⟩ := pairwise_cons.1 sorted
    cases rest with
    | nil => exact pairwise_singleton _ _
    | cons second others =>
      simp only [clash?] at clear
      split at clear
      · cases clear
      · rename_i apart
        refine pairwise_cons.2 ⟨?_,ih clear restSorted⟩
        intro later member
        -- starts only grow, so the successor's start is the bound for all that follow
        rcases mem_cons.1 member with rfl | member
        · exact Nat.not_lt.1 apart
        · exact Nat.le_trans (Nat.not_lt.1 apart) (start_le_of_before ((pairwise_cons.1 restSorted).1 later member))

lemma check_eq_ok (checked : check file edits = .ok sorted) :
    sorted = sort edits ∧ sorted.Pairwise fun a b => a.stop ≤ b.start := by
  simp only [check] at checked
  split at checked
  · cases checked
  · rename_i clear
    cases checked
    exact ⟨rfl,pairwise_of_clash?_eq_none clear (sort_pairwise edits)⟩

lemma pair_sublist_sort (found : [a,b].Sublist edits ∨ [b,a].Sublist edits) :
    [a,b].Sublist (sort edits) ∨ [b,a].Sublist (sort edits) := by
  have both : [a,b].Subperm (sort edits) := by
    have swap : [b,a].Perm [a,b] := Perm.swap a b []
    have inEdits : [a,b].Subperm edits := found.elim Sublist.subperm fun other => swap.subperm_right.1 other.subperm
    exact (mergeSort_perm edits before).subperm_left.2 inEdits
  obtain ⟨order,perm,sublist⟩ := both
  match order, perm.length_eq with
  | [first,second], _ =>
    have member : first ∈ [a,b] := perm.mem_iff.1 mem_cons_self
    rcases mem_pair.1 member with rfl | rfl
    · have rest : [second].Perm [b] := perm.cons_inv
      rw [perm_singleton.1 rest] at sublist
      exact .inl sublist
    · have rest : [second].Perm [a] := (perm.trans (Perm.swap _ _ [])).cons_inv
      rw [perm_singleton.1 rest] at sublist
      exact .inr sublist

end Edit

/-! ### Steps that may fail -/

variable {ε β : Type}

@[simp] lemma bind_ok (a : α) (f : α → Except ε β) : (ok a >>= f) = f a := rfl

@[simp] lemma bind_error (fault : ε) (f : α → Except ε β) : (error fault >>= f) = .error fault := rfl

@[simp] lemma pure_eq_ok (a : α) : (pure a : Except ε α) = .ok a := rfl

lemma bind_eq_ok {x : Except ε α} {f : α → Except ε β} : (x >>= f) = .ok b ↔ ∃ a, x = .ok a ∧ f a = .ok b := by
  cases x <;> simp

lemma mapM_eq_ok {f : α → Except ε β} {results : List β} (succeeds : values.mapM f = .ok results) :
    ∀ (fallback : β), results = values.map (fun value => (f value).toOption.getD fallback) ∧
      ∀ value ∈ values, ∃ result, f value = .ok result := by
  intro fallback
  induction values generalizing results with
  | nil =>
    cases succeeds
    simp
  | cons value rest ih =>
    rw [mapM_cons] at succeeds
    obtain ⟨first,head,succeeds⟩ := bind_eq_ok.1 succeeds
    obtain ⟨others,tail,⟨⟩⟩ := bind_eq_ok.1 succeeds
    obtain ⟨equal,all⟩ := ih tail
    exact ⟨by simp [head,Except.toOption,equal],forall_mem_cons.2 ⟨⟨first,head⟩,all⟩⟩

lemma mapM_of_ok {f : α → Except ε β} {g : α → β} (all : ∀ value ∈ values, f value = .ok (g value)) :
    values.mapM f = .ok (values.map g) := by
  induction values with
  | nil => rfl
  | cons value rest ih =>
    rw [mapM_cons,all value mem_cons_self, ih fun other member => all other (mem_cons_of_mem _ member)]
    rfl

lemma pair_sublist_of_mem (ha : a ∈ values) (hb : b ∈ values) (apart : a ≠ b) :
    [a,b].Sublist values ∨ [b,a].Sublist values := by
  induction values with
  | nil => cases ha
  | cons first rest ih =>
    rcases mem_cons.1 ha with rfl | laterA
    · have laterB := (mem_cons.1 hb).resolve_left apart.symm
      exact .inl ((singleton_sublist.2 laterB).cons_cons _)
    · rcases mem_cons.1 hb with rfl | laterB
      · exact .inr ((singleton_sublist.2 laterA).cons_cons _)
      · exact (ih laterA laterB).imp (.cons _) (.cons _)

/-! ### The edits of a region -/

lemma check_sortedEdits {tree : Scoping} {edits : List RegionEdit} {regions : List (Region × List Edit)}
    (checked : checkRegions file tree edits = .ok regions) {region : Region}
    (listed : ∀ i, region = some i → i < tree.closures.length) :
    Edit.check file (editsOf edits region) = .ok (sortedEdits regions region) := by
  obtain ⟨equal,all⟩ := mapM_eq_ok checked (none, [])
  have member : region ∈ none :: (List.range tree.closures.length).map some := by
    cases region with
    | none => exact mem_cons_self
    | some i => simpa using listed i rfl
  obtain ⟨entry,succeeds⟩ := all region member
  obtain ⟨sorted,own,-⟩ := bind_eq_ok.1 succeeds
  rw [own]
  -- every entry of the list is what its own region gives, so the first one found is this one
  have keyed : ∀ entry ∈ regions, entry.1 = region → entry.2 = sorted := by
    intro entry entryMember same
    rw [equal] at entryMember
    obtain ⟨other,otherMember,rfl⟩ := mem_map.1 entryMember
    obtain ⟨result,otherOk⟩ := all other otherMember
    simp only [otherOk,Except.toOption,Option.getD_some] at same ⊢
    obtain ⟨_,found,⟨⟩⟩ := bind_eq_ok.1 otherOk
    obtain rfl : other = region := same
    exact ok.inj (found.symm.trans own)
  have present : (region, sorted) ∈ regions := by
    rw [equal]
    refine mem_map.2 ⟨region,member,?_⟩
    simp [own,Except.toOption]
  cases first : regions.find? fun entry => entry.1 == region with
  | none =>
    have absent := find?_eq_none.1 first _ present
    simp at absent
  | some entry =>
    have same : entry.1 = region := by simpa using find?_some first
    simp [sortedEdits,first,keyed entry (mem_of_find?_eq_some first) same]

end Resumable
