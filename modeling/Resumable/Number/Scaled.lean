import Resumable.Number.Written

/-! Decimals read by scaling: the digits as one whole number, multiplied or divided by a power of
ten, with each step rounded. This is quick and may miss the nearest number by a little. -/
namespace Resumable.Number

def quotient (x : Number) : Nat × Nat :=
  if 0 ≤ x.exponent then (x.significand * Nat.pow 2 x.exponent.toNat, 1)
  else (x.significand, Nat.pow 2 (-x.exponent).toNat)

def times (x y : Number) : Number :=
  let (a, b) := x.quotient
  let (c, d) := y.quotient
  ofQuotient false (a * c) (b * d)

def dividedBy (x y : Number) : Number :=
  let (a, b) := x.quotient
  let (c, d) := y.quotient
  ofQuotient false (a * d) (b * c)

def tenTo (power : Nat) : Number := ofDecimal false 1 power

def overTenTo : Nat → Number → Nat → Number
  | 0, x, _ => x
  | fuel + 1, x, power =>
    if power ≤ 308 then x.dividedBy (tenTo power)
    else if x.significand = 0 then x
    else overTenTo fuel (x.dividedBy (tenTo 308)) (power - 308)

def scale? (digits : Nat) (power : Int) : Option Number :=
  let start := ofNat digits
  if power < 0 then some (overTenTo ((-power).toNat / 308 + 1) start (-power).toNat)
  else if power ≤ 308 then
    let x := start.times (tenTo power.toNat)
    if x.isFinite then some x else none
  else if digits = 0 then some start
  else none

def wordDigits : Nat → Nat → List Char → Nat × Nat
  | value, left, [] => (value, left)
  | value, left, c :: rest =>
    let next := 10 * value + (c.toNat - '0'.toNat)
    if left = 0 && next < UInt64.size then wordDigits next 0 rest
    else wordDigits value (left + 1) rest

def readScaled? (text : String) : Option Number :=
  let (negative, rest) := match text.toList with
    | '-' :: rest => (true, rest)
    | rest => (false, rest)
  let (whole, rest) := takeDigits rest
  let (places, rest) := match rest with
    | '.' :: rest => takeDigits rest
    | rest => ([], rest)
  let power : Option Int := match rest with
    | [] => some 0
    | _ :: rest => readExponent? rest
  let (value, left) := wordDigits 0 0 (whole ++ places)
  power.bind fun power =>
    (scale? value (power - places.length + left)).map fun x => if negative then x.neg else x

end Resumable.Number
