import Resumable.Proofs.Decimals
import Resumable.Script.Numeral

/-! Numbers in a script are read as they were written. A written number is a run of digits with at
most one point in it, and what follows it neither continues it nor makes it faulty. -/
namespace Resumable
open Number List Text Bool
variable {x : Number} {n : Nat} {rest : List Char} {c : Char}

lemma Text.isAsciiDigit_eq (c : Char) : isAsciiDigit c = c.isDigit := rfl

namespace Number

lemma digitsValue_append_zeros (digits : List Char) (n : Nat) :
    digitsValue 10 (digits ++ zeros n) = digitsValue 10 digits * 10 ^ n := by
  induction n with
  | zero => simp [zeros]
  | succ n ih =>
    have last : zeros (n + 1) = zeros n ++ ['0'] := replicate_succ'
    rw [last,← append_assoc,digitsValue,foldl_append]
    change digitsValue 10 (digits ++ zeros n) * 10 + 0 = _
    rw [ih,Nat.pow_succ]; ring

lemma digitsValue_zeros_append (n : Nat) (digits : List Char) :
    digitsValue 10 (zeros n ++ digits) = digitsValue 10 digits := by
  have value : digitsValue 10 (zeros n) = 0 := by simpa [digitsValue] using digitsValue_append_zeros [] n
  rw [digitsValue,foldl_append]
  change digits.foldl _ (digitsValue 10 (zeros n)) = _
  rw [value]; rfl

lemma digitsValue_toDigits (n : Nat) : digitsValue 10 (Nat.toDigits 10 n) = n := by
  have same (digits : List Char) (all : ∀ c ∈ digits, c.isDigit) (start : Nat) :
      digits.foldl (fun value c => value * 10 + hexValue c) start = Nat.ofDigitChars 10 digits start := by
    induction digits generalizing start with
    | nil => rfl
    | cons c rest ih =>
      have head := all c mem_cons_self
      rw [Nat.ofDigitChars_cons,foldl_cons,show hexValue c = c.toNat - '0'.toNat from if_pos head,mul_comm]
      exact ih (fun d mem => all d (mem_cons_of_mem c mem)) _
  rw [digitsValue,same _ (fun c mem => Nat.isDigit_of_mem_toDigits (by decide) le_rfl mem)]
  exact Nat.ofDigitChars_ten_toDigits

variable {significand : Nat} {exponent : Int}

lemma nearest_pos (positive : 0 < significand) (near : Nearest significand exponent value) : 0 < value := by
  have unit : (0 : ℚ) < 2 ^ (exponent - 2) := by positivity
  have one : (1 : ℚ) ≤ significand := by exact_mod_cast positive
  have gap : (gapBelow significand exponent : ℚ) ≤ 2 := by simp only [gapBelow]; split <;> norm_num
  refine (mul_pos ?_ unit).trans_le near.low
  linarith

lemma nearest_self : Nearest significand exponent (significand * 2 ^ exponent) := by
  have unit : (0 : ℚ) < 2 ^ exponent := by positivity
  have gap : 1 ≤ (gapBelow significand exponent : ℚ) := by simp only [gapBelow]; split <;> norm_num
  have low : (4 * significand - gapBelow significand exponent : ℚ) * 2 ^ (exponent - 2) <
      significand * 2 ^ exponent := by
    rw [two_zpow_sub_two]; nlinarith
  have high : (significand * 2 ^ exponent : ℚ) < (4 * significand + 2) * 2 ^ (exponent - 2) := by
    rw [two_zpow_sub_two]; nlinarith
  exact ⟨low.le,high.le,.inr ⟨low,high⟩⟩

lemma magnitude_eq_zero (zero : x.significand = 0) : x.magnitude = 0 := by
  have full := x.isParts.full.resolve_left (by omega)
  rw [magnitude_eq,zero,full]; rfl

lemma ofDecimal_shortest {digits : Nat} {power : Int} (finite : x.isFinite)
    (value : digits * 10 ^ power = x.shortest.value) :
    ofDecimal false digits power = ofParts false x.magnitude := by
  by_cases zero : x.significand = 0
  · have none : digits = 0 := by
      rw [shortest,if_pos zero] at value
      simpa [Decimal.value,zpow_ne_zero] using value
    rw [magnitude_eq_zero zero,none]
    rfl
  · apply ofDecimal_of_nearest x false finite zero
    rw [value]
    exact shortest_nearest x zero

lemma xor_two_pow (small : n < 2 ^ k) : n ^^^ 2 ^ k = 2 ^ k + n := by
  apply Nat.eq_of_testBit_eq
  intro i
  rw [Nat.testBit_xor,Nat.testBit_two_pow]
  rcases Nat.lt_trichotomy i k with below | rfl | above
  · simp [Nat.testBit_two_pow_add_gt below,below.ne']
  · simp [Nat.testBit_two_pow_add_eq,Nat.testBit_lt_two_pow small]
  · have wide : 2 ^ (k + 1) ≤ 2 ^ i := Nat.pow_le_pow_right (by decide) above
    have left : n.testBit i = false := Nat.testBit_lt_two_pow (by omega)
    have right : (2 ^ k + n).testBit i = false := Nat.testBit_lt_two_pow (by omega)
    simp [left,right,above.ne]

lemma neg_ofParts (small : size < 2 ^ 63) : (ofParts false size).neg = ofParts true size := by
  have sign : (0x8000000000000000 : UInt64).toNat = 2 ^ 63 := rfl
  simp only [neg,ofParts,mk.injEq,false_eq_true,if_false,if_true,Nat.zero_add]
  rw [← UInt64.toNat_inj,UInt64.toNat_xor,UInt64.toNat_ofNat_of_lt',UInt64.toNat_ofNat_of_lt', sign,xor_two_pow small]
  · rfl
  · simp only [UInt64.size,Nat.pow_eq]; omega
  · simp only [UInt64.size]; omega

lemma toNat?_ofDecimal (small : n < 2 ^ 53) : (ofDecimal false n 0).toNat? = some n := by
  by_cases zero : n = 0
  · subst zero; decide
  have low : 2 ^ n.log2 ≤ n := Nat.log2_self_le zero
  have high : n < 2 ^ (n.log2 + 1) := Nat.lt_log2_self
  have bits : n.log2 ≤ 52 := by
    have := (Nat.pow_lt_pow_iff_right (a := 2) (by decide)).1 (low.trans_lt small)
    omega
  -- The significand is filled up to 53 bits.
  obtain ⟨k,filled⟩ : ∃ k, n.log2 + k = 52 := ⟨52 - n.log2,by omega⟩
  have least : 2 ^ 52 ≤ n * 2 ^ k := by rw [← filled,Nat.pow_add]; exact Nat.mul_le_mul_right _ low
  have most : n * 2 ^ k < 2 ^ 53 := by
    rw [show 53 = n.log2 + 1 + k by omega,Nat.pow_add]
    exact Nat.mul_lt_mul_of_pos_right high (by positivity)
  have parts : IsParts (n * 2 ^ k) (-k) := ⟨most,by omega,.inl least⟩
  have fits : (-(k : Int) + 1074).toNat * 2 ^ 52 + n * 2 ^ k < 2047 * 2 ^ 52 := by omega
  obtain ⟨significand,exponent⟩ := parts_ofParts parts false (by omega)
  have magnitude := magnitude_ofParts false (fits.trans (by norm_num))
  have sign := isNegative_ofParts false (fits.trans (by norm_num))
  generalize ofParts false ((-(k : Int) + 1074).toNat * 2 ^ 52 + n * 2 ^ k) = x at *
  have finite : x.isFinite := by simp only [isFinite,bne_iff_ne,biased_eq,magnitude]; omega
  have nonzero : x.significand ≠ 0 := by omega
  have near : Nearest x.significand x.exponent (n * 10 ^ (0 : Int)) := by
    rw [significand,exponent]
    convert nearest_self using 1
    rw [zpow_neg,zpow_natCast]
    push_cast
    field_simp
  have read : ofDecimal false n 0 = x := by
    rw [ofDecimal_of_nearest x false finite nonzero near,← sign,ofParts_magnitude]
  have unit : (-(-(k : Int))).toNat = k := by simp
  rw [read,toNat?,finite,sign,if_neg (by decide),if_neg nonzero,if_neg (by decide),
    significand,exponent,unit,Nat.pow_eq,Nat.pow_eq]
  by_cases whole : k = 0
  · subst whole; simp
  · rw [if_neg (by omega),if_pos (Nat.mul_mod_left _ _),Nat.mul_div_cancel _ (by positivity)]

end Number

namespace Script

variable {digits : List Char}

def endsNumber (c : Char) : Bool := !(isIdentifierStart c || isAsciiDigit c || c == '.')

lemma separatedDigits_append (rest : List Char) (all : ∀ c ∈ digits, c.isDigit)
    (stops : ∀ c ∈ rest.head?, ¬c.isDigit ∧ c ≠ '_') :
    separatedDigits isAsciiDigit (digits ++ rest) = (digits, rest, digits.length, false) := by
  induction digits with
  | nil =>
    cases rest with
    | nil => rfl
    | cons c rest =>
      obtain ⟨digit,underscore⟩ := stops c rfl
      rw [nil_append,separatedDigits.eq_def]
      simp [isAsciiDigit_eq,digit,underscore]
  | cons c digits ih =>
    have head := all c mem_cons_self
    rw [cons_append,separatedDigits.eq_def]
    simp [isAsciiDigit_eq,head,ih fun d mem => all d (mem_cons_of_mem c mem)]

section
variable (ends : endsNumber c)
include ends

lemma readPower_of_ends (rest : List Char) : readPower (c :: rest) = (0, c :: rest, 0, none) := by
  have notE : ¬(c == 'e' || c == 'E') = true := by
    intro mark
    rcases or_eq_true _ _ ▸ mark with eq | eq
    all_goals rw [beq_iff_eq] at eq; subst eq; revert ends; decide
  simp only [readPower,if_neg notE]

lemma closed_of_ends (value : Number) (size : Nat) :
    Numeral.closed { value, rest := c :: rest, size } = { value, rest := c :: rest, size } := by
  simp only [endsNumber,not_eq_true',or_eq_false_iff] at ends
  simp [Numeral.closed,ends]

lemma not_isDigit_of_ends : ¬c.isDigit ∧ c ≠ '_' ∧ c ≠ '.' ∧ c ≠ 'n' := by
  refine ⟨?_,?_,?_,?_⟩
  · simp only [endsNumber,not_eq_true',or_eq_false_iff] at ends
    simpa [isAsciiDigit_eq] using ends.1.2
  all_goals rintro rfl; revert ends; decide

lemma readFraction_whole (digits rest : List Char) : readFraction digits digits.length (c :: rest) =
      { value := ofDecimal false (digitsValue 10 digits) 0
        rest := c :: rest, size := digits.length } := by
  obtain ⟨-,-,point,-⟩ := not_isDigit_of_ends ends
  simp [readFraction,point,readPower_of_ends ends,closed_of_ends ends]

lemma readFraction_point (all : ∀ c ∈ places, c.isDigit) (nonempty : places ≠ []) :
    readFraction digits digits.length ('.' :: (places ++ c :: rest)) =
      { value := ofDecimal false (digitsValue 10 (digits ++ places)) (-places.length)
        rest := c :: rest, size := digits.length + 1 + places.length } := by
  obtain ⟨digit,underscore,-⟩ := not_isDigit_of_ends ends
  have read := separatedDigits_append (c :: rest) all (by simp [digit,underscore])
  obtain ⟨d,tail,rfl⟩ := exists_cons_of_ne_nil nonempty
  have first : d ≠ '_' := by rintro rfl; exact absurd (all '_' mem_cons_self) (by decide)
  simp only [cons_append] at read ⊢
  simp [readFraction,first,read,readPower_of_ends ends,closed_of_ends ends]

lemma stops_of_ends (rest : List Char) : ∀ d ∈ (c :: rest).head?, ¬d.isDigit ∧ ¬isIdentifierStart d := by
  simp only [endsNumber,not_eq_true',or_eq_false_iff] at ends
  simp [← isAsciiDigit_eq,ends]

end

structure IsWhole (digits : List Char) : Prop where
  all : ∀ c ∈ digits, c.isDigit
  nonempty : digits ≠ []
  lead : digits = ['0'] ∨ digits.head? ≠ some '0'

lemma readNumeral_whole (is : IsWhole whole) (stops : ∀ c ∈ rest.head?, ¬c.isDigit ∧ ¬isIdentifierStart c) :
    readNumeral (whole ++ rest) = readFraction whole whole.length rest := by
  have notLetter {c d : Char} (letter : isIdentifierStart d) (mem : c ∈ rest.head?) : c ≠ d := by
    rintro rfl; exact (stops c mem).2 letter
  have read : readDecimal (whole ++ rest) = readFraction whole whole.length rest := by
    have digits := separatedDigits_append rest is.all fun c mem => ⟨(stops c mem).1,notLetter (by decide) mem⟩
    simp only [readDecimal,digits]
    split
    · contradiction
    · split
      · exact absurd rfl (notLetter (d := 'n') (by decide) rfl)
      · rfl
  rw [← read]
  obtain ⟨c,tail,rfl⟩ := exists_cons_of_ne_nil is.nonempty
  rcases is.lead with zero | lead
  · obtain ⟨rfl,rfl⟩ := cons.inj zero
    cases rest with
    | nil => rfl
    | cons mark rest =>
      have differs {d : Char} (letter : isIdentifierStart d) : mark ≠ d := notLetter letter rfl
      have digit := (stops mark rfl).1
      simp [readNumeral,isAsciiDigit_eq,digit,differs (d := 'x') (by decide),
        differs (d := 'X') (by decide),differs (d := 'o') (by decide),
        differs (d := 'O') (by decide),differs (d := 'b') (by decide),
        differs (d := 'B') (by decide)]
  · have point : c ≠ '.' := by rintro rfl; exact absurd (is.all '.' mem_cons_self) (by decide)
    have zero : c ≠ '0' := by simpa using lead
    simp only [cons_append]
    unfold readNumeral
    split
    · next eq => exact absurd (cons.inj eq).1 point
    · next eq => exact absurd (cons.inj eq).1 zero
    · rfl

lemma isDigit_of_mem_zeros (mem : c ∈ zeros n) : c.isDigit := by
  obtain rfl := eq_of_mem_replicate mem
  decide

lemma isDigit_of_mem_toDigits (mem : c ∈ Nat.toDigits 10 n) : c.isDigit :=
  Nat.isDigit_of_mem_toDigits (by decide) le_rfl mem

lemma isWhole_toDigits (n : Nat) : IsWhole (Nat.toDigits 10 n) where
  all _ mem := isDigit_of_mem_toDigits mem
  nonempty := Nat.toDigits_ne_nil
  lead := by
    induction n using Nat.strongRecOn with
    | ind n ih =>
      rcases Nat.lt_or_ge n 10 with small | large
      · rw [Nat.toDigits_of_lt_base small]
        clear ih
        decide +revert
      · have further := Nat.toDigits_of_base_le (by decide) large
        rcases ih (n / 10) (by omega) with zero | lead
        · have value := digitsValue_toDigits (n / 10)
          rw [zero] at value
          change 0 = n / 10 at value
          omega
        · right
          rwa [further,head?_append_of_ne_nil _ Nat.toDigits_ne_nil]

lemma head?_toDigits (nonzero : n ≠ 0) : (Nat.toDigits 10 n).head? ≠ some '0' := by
  apply (isWhole_toDigits n).lead.resolve_left
  intro zero
  have value := digitsValue_toDigits n
  rw [zero] at value
  exact nonzero value.symm

/-- A decimal as it is written: a whole part, decimal places if there are any, and perhaps a power of ten. -/
structure Figure where
  whole : List Char
  places : List Char := []
  power : Option Int := none

namespace Figure

def fraction (figure : Figure) : List Char := if figure.places = [] then [] else '.' :: figure.places

def scale (figure : Figure) : List Char :=
  match figure.power with
  | some power => 'e' :: (if power < 0 then '-' else '+') :: Nat.toDigits 10 power.natAbs
  | none => []

def text (figure : Figure) : List Char := figure.whole ++ (figure.fraction ++ figure.scale)

def number (figure : Figure) : Nat := digitsValue 10 (figure.whole ++ figure.places)

def exponent (figure : Figure) : Int := figure.power.getD 0 - figure.places.length

structure Proper (figure : Figure) : Prop where
  whole : IsWhole figure.whole
  places : ∀ c ∈ figure.places, c.isDigit

end Figure

lemma positional_eq {decimal : Decimal} (plain : decimal.digits = 0 → decimal.power ≤ 0) :
    ∃ figure : Figure, figure.Proper ∧ figure.power = none ∧ figure.text = positional decimal ∧
      figure.number * 10 ^ figure.exponent = decimal.value ∧ (figure.places = [] ↔ 0 ≤ decimal.power) := by
  have whole := isWhole_toDigits decimal.digits
  have value := digitsValue_toDigits decimal.digits
  simp only [positional,Decimal.value]
  split
  · next large =>
    obtain ⟨n,eq⟩ := Int.eq_ofNat_of_zero_le large
    rw [eq] at plain ⊢
    have isWhole : IsWhole (Nat.toDigits 10 decimal.digits ++ zeros n) := by
      by_cases none : n = 0
      · subst none; simpa [zeros] using whole
      have lead := head?_toDigits (n := decimal.digits) (by omega)
      refine ⟨?_,by simp [whole.nonempty],.inr ?_⟩
      · simp only [mem_append]
        rintro d (mem | mem)
        exacts [isDigit_of_mem_toDigits mem,isDigit_of_mem_zeros mem]
      · rwa [head?_append_of_ne_nil _ whole.nonempty]
    refine ⟨⟨_,[],none⟩,⟨isWhole,nofun⟩,rfl,by simp [Figure.text,Figure.fraction,Figure.scale],?_,by simp⟩
    simp [Figure.number,Figure.exponent,digitsValue_append_zeros,value]
  · split
    · next small inside =>
      obtain ⟨n,eq⟩ := Int.eq_ofNat_of_zero_le inside.le
      rw [eq,Int.toNat_natCast]
      set digits := Nat.toDigits 10 decimal.digits with written
      have isWhole : IsWhole (digits.take n) := by
        have lead : digits.head? ≠ some '0' := whole.lead.resolve_left fun zero => by
          simp only [zero,length_singleton] at inside
          omega
        have some : n ≠ 0 := by omega
        refine ⟨fun d mem => whole.all d (mem_of_mem_take mem),?_,.inr ?_⟩
        · simp [whole.nonempty,some]
        · rwa [head?_take,if_neg some]
      have nonempty : digits.drop n ≠ [] := by simp only [ne_eq,drop_eq_nil_iff]; omega
      have power : -((digits.drop n).length : Int) = decimal.power := by rw [length_drop]; omega
      refine ⟨⟨digits.take n,digits.drop n,none⟩,⟨isWhole,fun d mem => whole.all d (mem_of_mem_drop mem)⟩,rfl,?_,?_,?_⟩
      · rw [Figure.text,Figure.fraction,if_neg nonempty]
        simp [Figure.scale]
      · rw [Figure.number,Figure.exponent,take_append_drop,value]
        simp only [Option.getD_none,Int.zero_sub,power]
      · exact iff_of_false nonempty small
    · next small inside =>
      obtain ⟨n,eq⟩ := Int.exists_eq_neg_ofNat (Int.not_lt.1 inside)
      rw [eq,neg_neg,Int.toNat_natCast]
      have nonempty : zeros n ++ Nat.toDigits 10 decimal.digits ≠ [] := by simp [whole.nonempty]
      have power : -((zeros n ++ Nat.toDigits 10 decimal.digits).length : Int) = decimal.power := by
        simp only [length_append,zeros,length_replicate]; omega
      refine ⟨⟨['0'],zeros n ++ Nat.toDigits 10 decimal.digits,none⟩,⟨⟨by simp,by simp,.inl rfl⟩,?_⟩,rfl,?_,?_,?_⟩
      · simp only [mem_append]
        rintro d (mem | mem)
        exacts [isDigit_of_mem_zeros mem,isDigit_of_mem_toDigits mem]
      · rw [Figure.text,Figure.fraction,if_neg nonempty]
        simp [Figure.scale]
      · have all : ['0'] ++ (zeros n ++ Nat.toDigits 10 decimal.digits) =
            zeros (n + 1) ++ Nat.toDigits 10 decimal.digits := rfl
        rw [Figure.number,Figure.exponent,all,digitsValue_zeros_append,value]
        simp only [Option.getD_none,Int.zero_sub,power]
      · exact iff_of_false nonempty small

lemma readNumeral_figure {figure : Figure} (proper : figure.Proper) (flat : figure.power = none) (rest : List Char)
    (ends : endsNumber c) : readNumeral (figure.text ++ c :: rest) =
      { value := ofDecimal false figure.number figure.exponent, rest := c :: rest, size := figure.text.length } := by
  obtain ⟨whole,places,power⟩ := figure
  obtain rfl : power = none := flat
  by_cases none : places = []
  · subst none
    simp only [Figure.text,Figure.fraction,Figure.scale,if_true,append_nil,Figure.number,Figure.exponent]
    rw [readNumeral_whole proper.whole (stops_of_ends ends rest),readFraction_whole ends]
    rfl
  · have point : ∀ d ∈ ('.' :: (places ++ c :: rest)).head?, ¬d.isDigit ∧ ¬isIdentifierStart d := by
      rintro d ⟨⟩
      decide
    simp only [Figure.text,Figure.fraction,Figure.scale,if_neg none,append_nil,append_assoc,cons_append]
    rw [readNumeral_whole proper.whole point,readFraction_point ends proper.places none,length_append,length_cons,
      Nat.add_right_comm,Nat.add_assoc]
    simp [Figure.number,Figure.exponent]

lemma shortest_plain (x : Number) : x.shortest.digits = 0 → x.shortest.power ≤ 0 := by
  intro none
  by_cases zero : x.significand = 0
  · rw [shortest,if_pos zero]
  · have positive := nearest_pos (Nat.pos_of_ne_zero zero) (shortest_nearest x zero)
    rw [Decimal.value,none,Nat.cast_zero,zero_mul] at positive
    exact absurd positive (lt_irrefl 0)

lemma readNumeral_shortest (finite : x.isFinite) (ends : endsNumber c) :
    readNumeral (positional x.shortest ++ c :: rest) =
      { value := ofParts false x.magnitude
        rest := c :: rest, size := (positional x.shortest).length } := by
  obtain ⟨figure,proper,flat,text,value,-⟩ := positional_eq (shortest_plain x)
  rw [← text,readNumeral_figure proper flat rest ends,ofDecimal_shortest finite value]

lemma readNumeral_toDigits (n : Nat) (ends : endsNumber c) : readNumeral (Nat.toDigits 10 n ++ c :: rest) =
      { value := ofDecimal false n 0
        rest := c :: rest, size := (Nat.toDigits 10 n).length } := by
  rw [readNumeral_whole (isWhole_toDigits n) (stops_of_ends ends rest),
    readFraction_whole ends,digitsValue_toDigits]

end Script
end Resumable
