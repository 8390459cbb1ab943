import Resumable.Keyed
import Mathlib.Data.List.Nodup

/-! Lists of named values: what is found in them, and what putting a value in changes. -/
namespace Resumable.Keyed
open List
variable {α : Type} {name : String} {value : α} {entries : List (String × α)}

lemma get?_insert (name other : String) (value : α) (entries : List (String × α)) :
    get? other (insert name value entries) = if name = other then some value else get? other entries := by
  induction entries with
  | nil => by_cases same : name = other <;> simp [insert,get?,same]
  | cons entry rest ih =>
    by_cases here : entry.1 = name
    · by_cases same : name = other <;> simp [insert,get?,here,same]
    · by_cases same : entry.1 = other
      · subst same
        simp [insert,get?,here,Ne.symm here]
      · simp [insert,get?,here,same,ih]

lemma mem_of_get? (found : get? name entries = some value) : (name, value) ∈ entries := by
  induction entries with
  | nil => cases found
  | cons entry rest ih =>
    rw [get?] at found
    split at found
    · next same =>
      cases found
      exact beq_iff_eq.1 same ▸ mem_cons_self
    · exact mem_cons_of_mem _ (ih found)

lemma mem_insert (member : entry ∈ insert name value entries) : entry = (name, value) ∨ entry ∈ entries := by
  induction entries with
  | nil => exact .inl (mem_singleton.1 member)
  | cons first rest ih =>
    unfold insert at member
    split at member
    · exact (mem_cons.1 member).imp_right (mem_cons_of_mem _)
    · rcases mem_cons.1 member with rfl | member
      · exact .inr mem_cons_self
      · exact (ih member).imp_right (mem_cons_of_mem _)

lemma get?_of_mem (apart : (entries.map Prod.fst).Nodup) (listed : (name, value) ∈ entries) :
    get? name entries = some value := by
  induction entries with
  | nil => cases listed
  | cons entry rest ih =>
    obtain ⟨first,later⟩ := nodup_cons.1 apart
    rcases mem_cons.1 listed with rfl | listed
    · simp [get?]
    · have different : entry.1 ≠ name := by
        rintro rfl
        exact first (mem_map.2 ⟨_,listed,rfl⟩)
      simp [get?,different,ih later listed]

lemma insert_of_not_mem (new : name ∉ entries.map Prod.fst) :
    insert name value entries = entries ++ [(name, value)] := by
  induction entries with
  | nil => rfl
  | cons entry rest ih =>
    simp only [map_cons,mem_cons,not_or] at new
    simp [insert,Ne.symm new.1,ih new.2]

lemma foldl_insert (more : List (String × α)) (apart : ((entries ++ more).map Prod.fst).Nodup) :
    more.foldl (fun entries entry => insert entry.1 entry.2 entries) entries = entries ++ more := by
  induction more generalizing entries with
  | nil => simp
  | cons entry rest ih =>
    have new : entry.1 ∉ entries.map Prod.fst := by
      intro listed
      rw [map_append] at apart
      exact disjoint_of_nodup_append apart listed (by simp)
    have moved : ((entries ++ [(entry.1, entry.2)]) ++ rest) = entries ++ entry :: rest := by simp
    rw [foldl_cons,insert_of_not_mem new,ih (by rwa [moved]),moved]

end Resumable.Keyed
