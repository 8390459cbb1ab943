/-! Double precision numbers as bit patterns, with every operation in exact integer arithmetic.
A finite number is `significand * 2 ^ exponent`; rounding goes to the nearest one, and to the even
significand when two are equally near. -/
namespace Resumable

structure Number where
  bits : UInt64
  deriving DecidableEq, Repr

namespace Number

def isNegative (x : Number) : Bool := x.bits.toNat / Nat.pow 2 63 == 1

def biased (x : Number) : Nat := x.bits.toNat / Nat.pow 2 52 % Nat.pow 2 11

def fraction (x : Number) : Nat := x.bits.toNat % Nat.pow 2 52

def isFinite (x : Number) : Bool := x.biased != 2047
def isNaN (x : Number) : Bool := x.biased == 2047 && x.fraction != 0
def isInfinite (x : Number) : Bool := x.biased == 2047 && x.fraction == 0

def significand (x : Number) : Nat := if x.biased = 0 then x.fraction else Nat.pow 2 52 + x.fraction

def exponent (x : Number) : Int := if x.biased = 0 then -1074 else (x.biased : Int) - 1075

def ofParts (negative : Bool) (magnitude : Nat) : Number :=
  ⟨UInt64.ofNat ((if negative then Nat.pow 2 63 else 0) + magnitude)⟩

def zero (negative : Bool) : Number := ofParts negative 0
def infinity (negative : Bool) : Number := ofParts negative (2047 * Nat.pow 2 52)
def nan : Number := ⟨0x7ff8000000000000⟩

def neg (x : Number) : Number := ⟨x.bits ^^^ 0x8000000000000000⟩

def scaled (numerator denominator : Nat) (exponent : Int) : Nat × Nat :=
  if 0 ≤ exponent then (numerator, denominator * Nat.pow 2 exponent.toNat)
  else (numerator * Nat.pow 2 (-exponent).toNat, denominator)

def roundQuotient (numerator denominator : Nat) : Nat :=
  let quotient := numerator / denominator
  let twice := 2 * (numerator % denominator)
  if denominator < twice || (twice == denominator && quotient % 2 == 1) then quotient + 1
  else quotient

def unitExponent (numerator denominator : Nat) : Int :=
  let guess : Int := max ((numerator.log2 : Int) - denominator.log2 - 53) (-1074)
  let (n, d) := scaled numerator denominator guess
  if n / d < Nat.pow 2 53 then guess else guess + 1

def ofQuotient (negative : Bool) (numerator denominator : Nat) : Number :=
  if numerator = 0 || denominator = 0 then zero negative
  else
    let exponent := unitExponent numerator denominator
    let (n, d) := scaled numerator denominator exponent
    let significand := roundQuotient n d
    if significand < Nat.pow 2 52 then ofParts negative significand
    else
      let magnitude := (exponent + 1074).toNat * Nat.pow 2 52 + significand
      if magnitude < 2047 * Nat.pow 2 52 then ofParts negative magnitude else infinity negative

def ofNat (n : Nat) : Number := ofQuotient false n 1

def ofDecimal (negative : Bool) (digits : Nat) (power : Int) : Number :=
  let size := (Nat.toDigits 10 digits).length + power
  if digits = 0 || size < -400 then zero negative
  else if 400 < size then infinity negative
  else if 0 ≤ power then ofQuotient negative (digits * Nat.pow 10 power.toNat) 1
  else ofQuotient negative digits (Nat.pow 10 (-power).toNat)

def toNat? (x : Number) : Option Nat :=
  if !x.isFinite then none
  else if x.significand = 0 then some 0
  else if x.isNegative then none
  else if 0 ≤ x.exponent then some (x.significand * Nat.pow 2 x.exponent.toNat)
  else
    let unit := Nat.pow 2 (-x.exponent).toNat
    if x.significand % unit = 0 then some (x.significand / unit) else none

def same (x y : Number) : Bool := (x.isNaN && y.isNaN) || x.bits == y.bits

end Number

end Resumable
