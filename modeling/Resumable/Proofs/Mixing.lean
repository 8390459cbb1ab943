import Resumable.Naming
import Mathlib.Data.Fintype.EquivFin

/-! Mixing. Every step of the hash can be undone, so texts or places that differ in one byte have
different hashes. -/
namespace Resumable.Naming
open Function
variable {text other : List UInt8} {state before : UInt64}

lemma bijective_of_injective {step : UInt64 → UInt64} (injective : Injective step) : Bijective step :=
  have : Finite UInt64 := .of_injective _ fun _ _ => UInt64.toFin_inj.1
  Finite.injective_iff_bijective.1 injective

lemma rotateLeft5_injective : Injective rotateLeft5 := by
  have back : LeftInverse (fun hash : UInt64 => (hash >>> 5) ||| (hash <<< 59)) rotateLeft5 := by
    intro hash
    apply UInt64.toBitVec_inj.1
    ext i bound
    simp [rotateLeft5]
    grind
  exact back.injective

/-- Odd factors have an inverse. -/
lemma mul_injective (inverse : UInt64) (unit : factor * inverse = 1) : Injective (· * factor) := by
  have back : LeftInverse (· * inverse) (· * factor) := by
    intro hash
    simp only [UInt64.mul_assoc,unit,UInt64.mul_one]
  exact back.injective

-- Two shifts by 33 leave nothing of 64 bits.
lemma xorShift_involutive : Involutive fun hash : UInt64 => hash ^^^ (hash >>> 33) := by
  intro hash
  apply UInt64.toBitVec_inj.1
  ext i bound
  simp
  grind

lemma avalanche_injective : Injective avalanche :=
  xorShift_involutive.injective.comp ((mul_injective 0x4f74430c22a54005 (by decide)).comp xorShift_involutive.injective)

lemma xor_eq_of_feed_eq (equal : feed state byte = feed before old) :
    rotateLeft5 state ^^^ byte.toUInt64 = rotateLeft5 before ^^^ old.toUInt64 :=
  mul_injective 0xf1de83e19937733d (by decide) equal

lemma feed_left_injective (byte : UInt8) : Injective (feed · byte) := by
  intro state before equal
  exact rotateLeft5_injective ((UInt64.xor_left_inj _).1 (xor_eq_of_feed_eq equal))

lemma feed_injective (hash : UInt64) : Injective (feed hash) := by
  intro byte old equal
  exact UInt8.toUInt64_inj.1 ((UInt64.xor_right_inj _).1 (xor_eq_of_feed_eq equal))

lemma foldl_feed_injective (bytes : List UInt8) : Injective (bytes.foldl feed) := by
  induction bytes with
  | nil => exact injective_id
  | cons byte bytes ih => exact ih.comp (feed_left_injective byte)

/-- Equally long bytes that differ in one place. -/
def DifferOnce (text other : List UInt8) : Prop :=
  ∃ before byte old after, byte ≠ old ∧ text = before ++ byte :: after ∧ other = before ++ old :: after

lemma DifferOnce.append (differ : DifferOnce text other) (front back : List UInt8) :
    DifferOnce (front ++ text ++ back) (front ++ other ++ back) := by
  obtain ⟨before,byte,old,after,ne,rfl,rfl⟩ := differ
  exact ⟨front ++ before,byte,old,after ++ back,ne,by simp,by simp⟩

lemma DifferOnce.avalanche_ne (differ : DifferOnce text other) :
    avalanche (text.foldl feed seed) ≠ avalanche (other.foldl feed seed) := by
  obtain ⟨before,byte,old,after,ne,rfl,rfl⟩ := differ
  intro equal
  have folded := avalanche_injective equal
  simp only [List.foldl_append,List.foldl_cons] at folded
  exact ne (feed_injective _ (foldl_feed_injective after folded))

/-- Each byte permutes the states of the hash and so does its end, and bytes lead from one state to
different ones. Hence one changed byte, in the text or in its place, changes the hash. -/
theorem one_byte_changes_hash :
    (∀ byte, Bijective (feed · byte)) ∧ (∀ hash, Injective (feed hash)) ∧ Bijective avalanche ∧
    (∀ text other offset salt, DifferOnce text other → saltedHash text offset salt ≠ saltedHash other offset salt) ∧
    ∀ text offset salt offset' salt',
      DifferOnce (littleEndian offset ++ littleEndian salt) (littleEndian offset' ++ littleEndian salt') →
      saltedHash text offset salt ≠ saltedHash text offset' salt' := by
  refine ⟨fun byte => bijective_of_injective (feed_left_injective byte), feed_injective,
    bijective_of_injective avalanche_injective, ?_, ?_⟩
  · intro text other offset salt differ
    simpa [saltedHash, spanBytes] using (differ.append [] (littleEndian offset ++ littleEndian salt)).avalanche_ne
  · intro text offset salt offset' salt' differ
    simpa [saltedHash, spanBytes] using (differ.append text []).avalanche_ne

end Resumable.Naming
