import Resumable.Number.Written
import Resumable.Script.Span
import Resumable.Text.Identifier

/-! Numeric literals. Every character of one is a single byte. -/
namespace Resumable.Script

structure Numeral where
  value : Number := Number.zero false
  bigint : Bool := false
  rest : List Char
  size : Nat
  fault : Option Nat := none
  deriving Repr

def separatedDigits (isDigit : Char → Bool) : List Char → List Char × List Char × Nat × Bool
  | [] => ([], [], 0, false)
  | c :: rest =>
    if isDigit c then
      let (digits, after, size, broken) := separatedDigits isDigit rest
      (c :: digits, after, size + 1, broken)
    else if c == '_' then
      match rest with
      | d :: rest =>
        if isDigit d then
          let (digits, after, size, broken) := separatedDigits isDigit rest
          (d :: digits, after, size + 2, broken)
        else ([], d :: rest, 1, true)
      | [] => ([], [], 1, true)
    else ([], c :: rest, 0, false)

/-- The value of digits of which there may be more than fit in 64 bits: rounded after each one. -/
def roundedValue (base : Nat) (digits : List Char) : Number :=
  digits.foldl (fun value c =>
      match value.toNat? with
      | some n => Number.ofNat (n * base + Text.hexValue c)
      | none => value)
    (Number.zero false)

def powerBaseValue (base exact : Nat) (digits : List Char) : Number :=
  if digits.length ≤ exact then Number.ofNat (Number.digitsValue base digits)
  else roundedValue base digits

def Numeral.closed (numeral : Numeral) : Numeral :=
  match numeral.fault, numeral.rest with
  | none, c :: _ =>
    if Text.isAsciiDigit c || Text.isIdentifierStart c then
      { numeral with fault := some numeral.size }
    else numeral
  | _, _ => numeral

def readBased (base exact : Nat) (isDigit : Char → Bool) (text : List Char) : Numeral :=
  match text with
  | c :: _ =>
    if isDigit c then
      let (digits, rest, size, broken) := separatedDigits isDigit text
      if broken then { rest, size := size + 2, fault := some (size + 2) }
      else
        match rest with
        | 'n' :: rest => Numeral.closed { bigint := true, rest, size := size + 3 }
        | rest => Numeral.closed { value := powerBaseValue base exact digits, rest, size := size + 2 }
    else { rest := text, size := 2, fault := some 2 }
  | [] => { rest := [], size := 2, fault := some 2 }

def readPower (text : List Char) : Int × List Char × Nat × Option Nat :=
  match text with
  | mark :: rest =>
    if mark == 'e' || mark == 'E' then
      let (negative, rest, size) := match rest with
        | '-' :: rest => (true, rest, 2)
        | '+' :: rest => (false, rest, 2)
        | rest => (false, rest, 1)
      match rest with
      | c :: _ =>
        if Text.isAsciiDigit c then
          let (digits, after, length, broken) := separatedDigits Text.isAsciiDigit rest
          let power := ((Number.readExponent? digits).getD 0)
          (if negative then -power else power, after, size + length,
            if broken then some (size + length) else none)
        else (0, rest, size, some size)
      | [] => (0, [], size, some size)
    else (0, text, 0, none)
  | [] => (0, [], 0, none)

def readFraction (whole : List Char) (size : Nat) (text : List Char) : Numeral :=
  let (places, rest, size, broken) := match text with
    | '.' :: '_' :: rest => ([], rest, size + 1, true)
    | '.' :: rest =>
      let (places, rest, length, broken) := separatedDigits Text.isAsciiDigit rest
      (places, rest, size + 1 + length, broken)
    | rest => ([], rest, size, false)
  if broken then { rest, size, fault := some size }
  else
    let (power, rest, length, fault) := readPower rest
    let value := Number.ofDecimal false (Number.digitsValue 10 (whole ++ places))
      (power - places.length)
    Numeral.closed { value, rest, size := size + length, fault := fault.map (size + ·) }

def readDecimal (text : List Char) : Numeral :=
  let (digits, rest, size, broken) := separatedDigits Text.isAsciiDigit text
  if broken then { rest, size, fault := some size }
  else
    match rest with
    | 'n' :: rest => Numeral.closed { bigint := true, rest, size := size + 1 }
    | rest => readFraction digits size rest

def readZeroLed (text : List Char) : Numeral :=
  let digits := text.takeWhile Text.isAsciiDigit
  let rest := text.drop digits.length
  if digits.all (fun c => c < '8') then
    Numeral.closed { value := powerBaseValue 8 21 digits, rest, size := digits.length }
  else readFraction digits digits.length rest

def isBinaryDigit (c : Char) : Bool := c == '0' || c == '1'
def isOctalDigit (c : Char) : Bool := '0' ≤ c && c ≤ '7'

def readNumeral (text : List Char) : Numeral :=
  match text with
  | '.' :: _ => readFraction [] 0 text
  | '0' :: mark :: rest =>
    if mark == 'x' || mark == 'X' then readBased 16 16 Text.isHexDigit rest
    else if mark == 'o' || mark == 'O' then readBased 8 21 isOctalDigit rest
    else if mark == 'b' || mark == 'B' then readBased 2 64 isBinaryDigit rest
    else if Text.isAsciiDigit mark then readZeroLed text
    else readDecimal text
  | text => readDecimal text

end Resumable.Script
