import Resumable.Files.Basic
import Mathlib.Data.List.Basic

/-! Changes of files. After a change that removes files and writes others, a path leads to the text
that it led to before or to one that was written. -/
namespace Resumable
open List

lemma toList_bytes (bytes : ByteArray) : bytes.toList = bytes.data.toList := by
  have loop (i : Nat) (read : List UInt8) :
      ByteArray.toList.loop bytes i read = read.reverse ++ bytes.data.toList.drop i := by
    fun_induction ByteArray.toList.loop bytes i read with
    | case1 i read inside ih =>
      have bound : i < bytes.data.toList.length := by simpa using inside
      have byte : bytes.get! i = bytes.data.toList[i] := by
        simp only [ByteArray.get!,Array.getElem_toList]
        exact getElem!_pos bytes.data i (by simpa using inside)
      rw [ih,drop_eq_getElem_cons bound,byte]
      simp
    | case2 i read outside =>
      have : bytes.data.toList.length ≤ i := by simpa using outside
      simp [drop_eq_nil_of_le this]
  rw [ByteArray.toList,loop]
  simp

lemma fromUTF8?_toUTF8 (text : String) : String.fromUTF8? ⟨text.toUTF8.toList.toArray⟩ = some text := by
  rw [toList_bytes,Array.toArray_toList,String.fromUTF8?,String.toUTF8_eq_toByteArray, dif_pos text.isValidUTF8]
  rfl

namespace Files
open Option
variable {files after : Files} {written also : List UInt8 → Prop} {place : Place} {path text : String}

def Writes (written : List UInt8 → Prop) (files after : Files) : Prop :=
  ∀ place content, after.content? place = some content →
    files.content? place = some content ∨ ∃ bytes, content = .file bytes ∧ written bytes

lemma Writes.refl : Writes written files files := fun _ _ found => .inl found

section
variable (writes : Writes written files after)
include writes

lemma Writes.mono (implies : ∀ bytes, written bytes → also bytes) :
    Writes also files after := fun place content found =>
  (writes place content found).imp_right fun ⟨bytes,is,new⟩ => ⟨bytes,is,implies bytes new⟩

lemma Writes.trans (others : Writes more after last) (implies : ∀ bytes, written bytes ∨ more bytes → also bytes) :
    Writes also files last := by
  intro place content found
  rcases others place content found with found | ⟨bytes,is,new⟩
  · exact writes.mono (fun bytes new => implies bytes (.inl new)) place content found
  · exact .inr ⟨bytes,is,implies bytes (.inr new)⟩

lemma Writes.leads (leads : after.follow links place names = some target) :
    files.follow links place names = some target ∨
      ∃ bytes, after.content? target = some (.file bytes) ∧ written bytes := by
  fun_induction after.follow links place names with
  | case1 => exact .inl (by simpa [follow] using leads)
  | case2 links place rest ih => simpa [follow] using ih leads
  | case3 links place name rest other folder ih =>
    have same := (writes _ _ folder).resolve_right (by simp)
    simpa [follow,other,same] using ih leads
  | case4 links place name rest other bytes file last =>
    obtain rfl := some.inj leads
    rcases writes _ _ file with same | ⟨_,is,new⟩
    · exact .inl (by simp [follow,same,last])
    · exact .inr ⟨_,file.trans (congrArg some is),new⟩
  | case5 | case6 | case8 => contradiction
  | case7 place name rest other target link links ih =>
    have same := (writes _ _ link).resolve_right (by simp)
    simpa [follow,other,same] using ih leads

lemma Writes.text?_eq (reads : after.text? path = some text) : files.text? path = some text ∨
      ∃ bytes : List UInt8, written bytes ∧ String.fromUTF8? ⟨bytes.toArray⟩ = some text := by
  obtain ⟨bytes,file,eq⟩ := bind_eq_some_iff.1 reads
  simp only [bytes?] at file
  split at file
  next found =>
    obtain rfl := some.inj file
    obtain ⟨place,leads,is⟩ := bind_eq_some_iff.1 found
    by_cases empty : path.isEmpty
    · simp [locate?,empty] at leads
    rcases writes.leads (by simpa [locate?,empty] using leads) with same | ⟨_,there,new⟩
    · rcases writes _ _ is with old | ⟨_,file,new⟩
      · left
        simp [text?,bytes?,locate?,empty,same,old,eq]
      · cases file
        exact .inr ⟨_,new,eq⟩
    · cases is.symm.trans there
      exact .inr ⟨_,new,eq⟩
  all_goals contradiction

end

lemma find?_filter_place {entries : List (Place × Content)} {entry : Place × Content}
    (keep : Place → Bool) (place : Place)
    (found : (entries.filter fun entry => keep entry.1).find? (·.1 == place) = some entry) :
    entries.find? (·.1 == place) = some entry := by
  have is := find?_some found
  have kept := (mem_filter.1 (mem_of_find?_eq_some found)).2
  rw [beq_iff_eq.1 is] at kept
  rw [find?_filter] at found
  rw [← found]
  congr 1
  funext other
  by_cases same : other.1 = place
  · simp [same,kept]
  · simp [same]

lemma writes_put (files : Files) (place : Place) (bytes : List UInt8) :
    Writes (· = bytes) files (files.put place (.file bytes)) := by
  intro other content found
  rw [content?] at found ⊢
  split at found
  · next empty => exact .inl (by rw [if_pos empty,found])
  next some =>
    rw [if_neg some]
    obtain ⟨entry,first,rfl⟩ := map_eq_some_iff.1 found
    rw [put,find?_append] at first
    rcases or_eq_some_iff.1 first with old | ⟨-,new⟩
    · exact .inl (by rw [find?_filter_place (· != place) other old]; rfl)
    · have mem := mem_of_find?_eq_some new
      rw [mem_singleton] at mem
      exact .inr ⟨bytes,by rw [mem],rfl⟩

lemma writes_write? (wrote : files.write? path bytes = some after) : Writes (· = bytes) files after := by
  obtain ⟨place,rfl⟩ : ∃ place, files.put place (.file bytes) = after := by
    simp only [write?,putAt] at wrote
    repeat' split at wrote
    all_goals first | contradiction | exact ⟨_,Option.some.inj wrote⟩
  exact writes_put files place bytes

lemma writes_remove (files : Files) (path : String) : Writes (fun _ => False) files (files.remove path) := by
  intro place content found
  left
  simp only [remove] at found
  split at found
  · exact found
  split at found
  · next name folder _ _ root _ =>
    rw [content?] at found ⊢
    split at found
    · next empty => rw [if_pos empty,found]
    · next some =>
      obtain ⟨entry,first,rfl⟩ := map_eq_some_iff.1 found
      rw [if_neg some, find?_filter_place (fun place => !(root ++ [name]).isPrefixOf place) place first]
      rfl
  · exact found

lemma text?_of_locate? (leads : files.locate? path = some place)
    (is : files.content? place = some (.file text.toUTF8.toList)) :
    files.text? path = some text := by
  simp only [text?,bytes?,leads,bind_some,is,fromUTF8?_toUTF8]

end Files
end Resumable
