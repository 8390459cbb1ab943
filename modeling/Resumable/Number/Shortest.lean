import Resumable.Number.Basic

/-! The fewest decimal digits that read back as a given number. Among the decimals with that many
digits the nearest is taken, and the larger of two equally near ones. -/
namespace Resumable.Number

structure Decimal where
  digits : Nat
  power : Int
  deriving DecidableEq, Repr

/-- The reals that round to a positive finite number: `low / unit` to `high / unit` around
`middle / unit`, the ends included when `closed`. -/
structure Interval where
  low : Nat
  middle : Nat
  high : Nat
  unit : Nat
  closed : Bool
  deriving DecidableEq, Repr

/-- Below a power of two the next number is only half as far away. -/
def Interval.around (significand : Nat) (exponent : Int) : Interval :=
  let below := if significand = Nat.pow 2 52 && -1074 < exponent then 1 else 2
  let scale := fun n => if 2 ≤ exponent then n * Nat.pow 2 (exponent - 2).toNat else n
  { low := scale (4 * significand - below)
    middle := scale (4 * significand)
    high := scale (4 * significand + 2)
    unit := if 2 ≤ exponent then 1 else Nat.pow 2 (2 - exponent).toNat
    closed := significand % 2 == 0 }

def balanced (a : Nat) (power : Int) (unit b : Nat) : Nat × Nat :=
  if 0 ≤ power then (a * Nat.pow 10 power.toNat * unit, b)
  else (a * unit, b * Nat.pow 10 (-power).toNat)

def Interval.contains (interval : Interval) (decimal : Decimal) : Bool :=
  let (x, low) := balanced decimal.digits decimal.power interval.unit interval.low
  let (y, high) := balanced decimal.digits decimal.power interval.unit interval.high
  if interval.closed then low ≤ x && y ≤ high else low < x && y < high

def Interval.magnitude (interval : Interval) : Int :=
  ((Nat.toDigits 10 (interval.middle * Nat.pow 10 350 / interval.unit)).length : Int) - 351

def Interval.neighbours (interval : Interval) (power : Int) : Decimal × Decimal :=
  let (unit, middle) := balanced 1 power interval.unit interval.middle
  let below := middle / unit
  if 2 * (middle % unit) < unit then (⟨below,power⟩, ⟨below + 1,power⟩)
  else (⟨below + 1,power⟩, ⟨below,power⟩)

def Interval.search (interval : Interval) (power : Int) : Nat → Decimal
  | 0 => (interval.neighbours power).1
  | tries + 1 =>
    let (near, far) := interval.neighbours power
    if interval.contains near then near
    else if interval.contains far then far
    else interval.search (power - 1) tries

def Decimal.strip (digits : Nat) (power : Int) : Nat → Decimal
  | 0 => ⟨digits,power⟩
  | tries + 1 =>
    if digits ≠ 0 && digits % 10 == 0 then strip (digits / 10) (power + 1) tries
    else ⟨digits,power⟩

def shortest (x : Number) : Decimal :=
  if x.significand = 0 then ⟨0,0⟩
  else
    let interval := Interval.around x.significand x.exponent
    let found := interval.search interval.magnitude 17
    Decimal.strip found.digits found.power 17

end Resumable.Number
