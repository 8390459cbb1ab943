import Resumable.Proofs.Aliases

/-! Names that are handed out. Over any course of requests a name is new, can stand as an identifier, and tells the
label and the hash that it is made of. -/
namespace Resumable.Naming
open List

inductive Request where
  | reserve (name : String)
  | allocate (label : Option String) (text : List UInt8) (offset : UInt32)
  deriving DecidableEq, Repr

namespace Allocator

variable {allocator other : Allocator} {label : Option String} {text : List UInt8} {offset : UInt32}

def answer (allocator : Allocator) : Request → String × Allocator
  | .reserve name => (name, allocator.reserve name)
  | .allocate label text offset => allocator.allocate label text offset

/-- The names that are reserved and handed out in the course of some requests. -/
def names (allocator : Allocator) : List Request → List String
  | [] => []
  | request :: rest => (allocator.answer request).1 :: (allocator.answer request).2.names rest

def after (allocator : Allocator) (requests : List Request) : Allocator :=
  requests.foldl (fun allocator request => (allocator.answer request).2) allocator

lemma mem_used_after (allocator : Allocator) (requests : List Request) (name : String) :
    name ∈ (allocator.after requests).used ↔ name ∈ allocator.used ∨ name ∈ allocator.names requests := by
  induction requests generalizing allocator with
  | nil => simp [after,names]
  | cons request rest ih =>
    have used : (allocator.answer request).2.used = (allocator.answer request).1 :: allocator.used := by
      cases request <;> rfl
    simp only [after,foldl_cons,names] at ih ⊢
    rw [ih,used]
    simp only [mem_cons]
    tauto

section
variable (same : ∀ name, name ∈ other.used ↔ name ∈ allocator.used)
include same

lemma freeSalt_congr (tries salt : Nat) :
    other.freeSalt label text offset tries salt = allocator.freeSalt label text offset tries salt := by
  induction tries generalizing salt with
  | zero => rfl
  | succ tries ih =>
    simp only [freeSalt,ih]
    congr 1
    simp [same]

end

lemma allocate_fresh {salt : UInt32} (free : saltedAlias label text offset salt ∉ allocator.used) :
    (allocator.allocate label text offset).1 ∉ allocator.used := by
  intro taken
  obtain ⟨before,last⟩ := allocator.freeSalt_spec label text offset (UInt32.size - 1) 0
  have ends := last taken
  rcases Nat.lt_or_ge salt.toNat (UInt32.size - 1) with low | high
  · refine free ?_
    have := before salt.toNat (Nat.zero_le _) (by omega)
    rwa [UInt32.ofNat_toNat] at this
  · have := salt.toNat_lt
    have here : salt.toNat = 0 + (UInt32.size - 1) := by simp only [UInt32.size] at high ⊢; omega
    rw [allocate,ends,← here,UInt32.ofNat_toNat] at taken
    exact free taken

lemma allocate_of_free (free : nameOfText label text offset ∉ allocator.used) :
    (allocator.allocate label text offset).1 = nameOfText label text offset := by
  obtain ⟨before,-⟩ := allocator.freeSalt_spec label text offset (UInt32.size - 1) 0
  have first : allocator.freeSalt label text offset (UInt32.size - 1) 0 = 0 := by
    by_contra later
    exact free (before 0 le_rfl (Nat.pos_of_ne_zero later))
  rw [allocate,first]
  rfl

end Allocator

/-! ### What a name is made of -/

lemma length_digits (count n : Nat) : (digits count n).length = count := by
  induction count generalizing n with
  | zero => rfl
  | succ count ih => rw [digits,length_cons,ih]

lemma mem_alphabet_of_mem_digits {count n : Nat} {c : Char} (listed : c ∈ digits count n) : c ∈ alphabet := by
  induction count generalizing n with
  | zero => cases listed
  | succ count ih =>
    rcases mem_cons.1 listed with rfl | listed
    · have low : n % 62 < alphabet.length := Nat.mod_lt _ (by decide)
      rw [getD_eq_getElem?_getD,getElem?_eq_getElem low]
      exact getElem_mem low
    · exact ih listed

lemma isNamePart_of_mem_alphabet {c : Char} (listed : c ∈ alphabet) : isNamePart c = true := by
  have all : alphabet.all isNamePart = true := by decide
  exact all_eq_true.1 all c listed

lemma stem_spec (label : Option String) :
    ∃ first rest, stem label = first :: rest ∧ isNameStart first = true ∧ ∀ c ∈ rest, isNamePart c = true := by
  have parts : ∀ c ∈ ((label.getD "").toList.map fun c => if isNamePart c then c else '_').take 16,
      isNamePart c = true := by
    intro c listed
    obtain ⟨d,-,rfl⟩ := mem_map.1 (mem_of_mem_take listed)
    split
    · assumption
    · decide
  unfold stem
  dsimp only
  split
  · exact ⟨'_',[],rfl,by decide,nofun⟩
  next first rest cleaned =>
  rw [cleaned,forall_mem_cons] at parts
  split
  · exact ⟨'_',_,rfl,by decide,forall_mem_cons.2 parts⟩
  · next plain =>
    refine ⟨first,rest,rfl,?_,parts.2⟩
    simpa [isNamePart,plain] using parts.1

lemma isPlainName_saltedAlias (label : Option String) (text : List UInt8) (offset salt : UInt32) :
    isPlainName (saltedAlias label text offset salt) = true := by
  obtain ⟨first,rest,is,start,parts⟩ := stem_spec label
  have digits : ∀ c ∈ encode (saltedHash text offset salt), isNamePart c = true :=
    fun c listed => isNamePart_of_mem_alphabet (mem_alphabet_of_mem_digits listed)
  simp only [isPlainName,saltedAlias,String.toList_ofList,is,cons_append,start,Bool.true_and,all_eq_true,
    mem_append,mem_cons]
  rintro c (listed | rfl | listed)
  exacts [parts c listed,by decide,digits c listed]

/-- Whatever was requested before, the name that is handed out next is an identifier, made of the label's stem and
eight digits in base 62. It is the first choice if that was not reserved or handed out before, it is new if any of
the choices is, and it depends on nothing but which names are in use. -/
theorem handed_out_names_are_fresh (requests : List Request) (label : Option String) (text : List UInt8)
    (offset : UInt32) :
    let allocator := ({} : Allocator).after requests
    let taken := ({} : Allocator).names requests
    let name := (allocator.allocate label text offset).1
    ((∃ salt, saltedAlias label text offset salt ∉ taken) → name ∉ taken) ∧
    isPlainName name = true ∧
    (∃ digits : List Char, name = String.ofList (stem label ++ '_' :: digits) ∧ digits.length = 8 ∧
      ∀ c ∈ digits, c ∈ alphabet) ∧
    (nameOfText label text offset ∉ taken → name = nameOfText label text offset) ∧
    ∀ other : Allocator, (∀ name, name ∈ other.used ↔ name ∈ allocator.used) →
      (other.allocate label text offset).1 = name := by
  intro allocator taken name
  have used (name : String) : name ∈ taken ↔ name ∈ allocator.used := by
    simp [allocator,taken,Allocator.mem_used_after]
  simp only [used]
  exact ⟨fun ⟨salt,free⟩ => Allocator.allocate_fresh free,isPlainName_saltedAlias ..,
    ⟨_,rfl,length_digits ..,fun c => mem_alphabet_of_mem_digits⟩,Allocator.allocate_of_free,
    fun other same => by
      simp only [name,Allocator.allocate,Allocator.freeSalt_congr same]⟩

end Resumable.Naming
