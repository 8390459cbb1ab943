import Resumable.Number.Shortest
import Resumable.Text.Units

/-! How numbers are written and read. Both written forms carry the fewest digits that read back;
a script gets them without an exponent, JSON with one when the number is large or small. -/
namespace Resumable.Number

def zeros (n : Nat) : List Char := List.replicate n '0'

def positional (decimal : Decimal) : List Char :=
  let digits := Nat.toDigits 10 decimal.digits
  let whole := digits.length + decimal.power
  if 0 ≤ decimal.power then digits ++ zeros decimal.power.toNat
  else if 0 < whole then digits.take whole.toNat ++ '.' :: digits.drop whole.toNat
  else ['0','.'] ++ zeros (-whole).toNat ++ digits

def sign (x : Number) : List Char := if x.isNegative then ['-'] else []

def scriptText (x : Number) : String :=
  if x.isNaN then "NaN"
  else if x.isInfinite then (if x.isNegative then "-Infinity" else "Infinity")
  else String.ofList (x.sign ++ positional x.shortest)

def shown (x : Number) : String :=
  if x.isNaN then "NaN"
  else if x.isInfinite then (if x.isNegative then "-inf" else "inf")
  else String.ofList (x.sign ++ positional x.shortest)

def scientific (digits : List Char) (power : Int) : List Char :=
  let mantissa := match digits with
    | first :: second :: rest => first :: '.' :: second :: rest
    | few => few
  mantissa ++ ['e',if power < 0 then '-' else '+'] ++ Nat.toDigits 10 power.natAbs

/-- A number in JSON. It is positional, with at least one decimal place, from `10 ^ -5` up to but
not including `10 ^ 16`. What JSON cannot hold is written as null. -/
def jsonText (x : Number) : String :=
  if !x.isFinite then "null"
  else
    let decimal := x.shortest
    let digits := Nat.toDigits 10 decimal.digits
    let power := (digits.length : Int) - 1 + decimal.power
    let body :=
      if decimal.digits = 0 then ['0','.','0']
      else if -5 ≤ power && power ≤ 15 then
        positional decimal ++ (if 0 ≤ decimal.power then ['.','0'] else [])
      else scientific digits power
    String.ofList (x.sign ++ body)

def digitsValue (base : Nat) (digits : List Char) : Nat :=
  digits.foldl (fun value c => value * base + Text.hexValue c) 0

def takeDigits (text : List Char) : List Char × List Char := text.span Char.isDigit

def readExponent? (text : List Char) : Option Int :=
  let (negative, rest) := match text with
    | '-' :: rest => (true, rest)
    | '+' :: rest => (false, rest)
    | rest => (false, rest)
  if rest.isEmpty || !rest.all Char.isDigit then none
  else
    -- More than nine digits are as good as nine: the number is zero or infinite either way.
    let size := if 9 < (rest.dropWhile (· == '0')).length then 999999999 else digitsValue 10 rest
    some (if negative then -(size : Int) else size)

def readUnsigned? (negative : Bool) (text : List Char) : Option Number :=
  let (whole, rest) := takeDigits text
  let (places, rest) := match rest with
    | '.' :: rest => takeDigits rest
    | rest => ([], rest)
  if whole.isEmpty && places.isEmpty then none
  else
    let value := digitsValue 10 (whole ++ places)
    match rest with
    | [] => some (ofDecimal negative value (-(places.length : Int)))
    | mark :: rest =>
      if mark == 'e' || mark == 'E' then
        (readExponent? rest).map fun power => ofDecimal negative value (power - places.length)
      else none

def read? (text : String) : Option Number :=
  let (negative, rest) := match text.toList with
    | '-' :: rest => (true, rest)
    | '+' :: rest => (false, rest)
    | rest => (false, rest)
  if rest == "Infinity".toList || rest == "inf".toList then some (infinity negative)
  else if rest == "NaN".toList then some nan
  else readUnsigned? negative rest

end Resumable.Number
