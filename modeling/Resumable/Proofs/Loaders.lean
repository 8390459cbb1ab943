import Resumable.Payload.Recording
import Mathlib.Data.Nat.Digits.Lemmas

/-! Names of loaders. Each is a part of the digest of its URL. As long as the digests differ, so do
the names: the last name to be tried is the whole digest. -/
namespace Resumable
open List

/-! ### Digests -/

lemma Text.length_paddedHex (positive : 0 < width) (bound : n < 16 ^ width) : (paddedHex width n).length = width := by
  have short : (Nat.toDigits 16 n).length ≤ width := (Nat.length_toDigits_le_iff (by decide) positive).2 bound
  simp [paddedHex,hexDigits]
  omega

lemma Digest.length_hexOfText (text : String) : (hexOfText text).toList.length = 64 := by
  have one (word : Word) : (Text.paddedHex 8 word.toNat).length = 8 := Text.length_paddedHex (by decide) word.toNat_lt
  simp [hexOfText,hex,State.words,one]

/-- The digests of some texts tell the texts apart. -/
def Digest.TellsApart (texts : String → Prop) : Prop := ∀ {a b}, texts a → texts b → hexOfText a = hexOfText b → a = b

namespace Payload.Recorder

variable {url other name : String} {taken names : List String}

def loaderName (url : String) (size : Nat) : String :=
  "load_" ++ String.ofList ((Digest.hexOfText url).toList.take size)

lemma loaderNames_eq (url : String) : loaderNames url = (range 15).map fun n => loaderName url (8 + 4 * n) := rfl

lemma mem_loaderNames : name ∈ loaderNames url ↔ ∃ n < 15, name = loaderName url (8 + 4 * n) := by
  simp [loaderNames_eq,eq_comm]

lemma freeName_mem (some : names ≠ []) : freeName taken names ∈ names := by
  fun_induction freeName taken names with
  | case1 => exact absurd rfl some
  | case2 name => exact mem_singleton_self name
  | case3 name rest other listed ih => exact mem_cons_of_mem _ (ih other)
  | case4 name rest other free => exact mem_cons_self

lemma freeName_not_mem (some : names ≠ []) (free : names.getLast some ∉ taken) : freeName taken names ∉ taken := by
  fun_induction freeName taken names with
  | case1 => exact absurd rfl some
  | case2 name => exact free
  | case3 name rest other listed ih => exact ih other (by rwa [getLast_cons other] at free)
  | case4 name rest other unlisted => simpa using unlisted

lemma hexOfText_of_loaderName (equal : loaderName other size = loaderName url 64) :
    Digest.hexOfText other = Digest.hexOfText url := by
  have taken : (Digest.hexOfText other).toList.take size = (Digest.hexOfText url).toList.take 64 := by
    simpa [loaderName] using congrArg String.toList equal
  rw [take_of_length_le (Digest.length_hexOfText url).le] at taken
  have long : 64 ≤ size := by
    have lengths := congrArg length taken
    rw [length_take,Digest.length_hexOfText,Digest.length_hexOfText] at lengths
    omega
  rw [take_of_length_le (by rw [Digest.length_hexOfText]; exact long)] at taken
  exact String.toList_injective taken

/-- Loaders with a name from their own URL, no two for one URL and no two of one name. -/
structure Distinct (loaders : List Loader) : Prop where
  named : ∀ loader ∈ loaders, loader.name ∈ loaderNames loader.url
  urls : (loaders.map Loader.url).Nodup
  names : (loaders.map Loader.name).Nodup

lemma distinct_nil : Distinct [] := ⟨by simp,nodup_nil,nodup_nil⟩

variable {loaders : List Loader} {recorder : Recorder} {used : String → Prop}

lemma Distinct.freeName_not_mem (distinct : Distinct loaders) (apart : Digest.TellsApart used)
    (known : ∀ loader ∈ loaders, used loader.url) (here : used url)
    (new : url ∉ loaders.map Loader.url) :
    freeName (loaders.map Loader.name) (loaderNames url) ∉ loaders.map Loader.name := by
  have some : loaderNames url ≠ [] := by simp [loaderNames_eq]
  refine Recorder.freeName_not_mem some fun listed => new ?_
  have last : (loaderNames url).getLast some = loaderName url 64 := by simp [loaderNames_eq,getLast_eq_getElem]
  obtain ⟨loader,member,same⟩ := mem_map.1 (last ▸ listed)
  obtain ⟨n,-,fromOther⟩ := mem_loaderNames.1 (distinct.named loader member)
  have digests := hexOfText_of_loaderName (fromOther.symm.trans same)
  exact mem_map.2 ⟨loader,member,apart (known loader member) here digests⟩

/-- What asking for the loader of a URL does: the loaders grow at their end, the answer names one of
them for the URL, and all else stays. -/
lemma loaderOf_spec (distinct : Distinct recorder.loaders) (apart : Digest.TellsApart used)
    (known : ∀ loader ∈ recorder.loaders, used loader.url) (here : used url) :
    ∃ more, (recorder.loaderOf url).2 = { recorder with loaders := recorder.loaders ++ more } ∧
      ⟨(recorder.loaderOf url).1,url⟩ ∈ recorder.loaders ++ more ∧
      Distinct (recorder.loaders ++ more) ∧ ∀ loader ∈ more, loader.url = url := by
  simp only [loaderOf]
  split
  · rename_i loader found
    have same : loader.url = url := by simpa using find?_some found
    refine ⟨[],by simp,?_,by simpa using distinct,by simp⟩
    simpa [← same] using mem_of_find?_eq_some found
  · rename_i missing
    have new : url ∉ recorder.loaders.map Loader.url := by
      intro listed
      obtain ⟨loader,member,same⟩ := mem_map.1 listed
      simpa [same] using find?_eq_none.1 missing loader member
    have free := distinct.freeName_not_mem apart known here new
    refine ⟨[⟨freeName (recorder.loaders.map Loader.name) (loaderNames url),url⟩],rfl,by simp, ⟨?_,?_,?_⟩,by simp⟩
    · intro loader member
      rcases mem_append.1 member with old | added
      · exact distinct.named loader old
      · cases mem_singleton.1 added
        exact freeName_mem (by simp [loaderNames_eq])
    · simpa [nodup_append,distinct.urls] using new
    · simpa [nodup_append,distinct.names] using free

end Payload.Recorder
end Resumable
