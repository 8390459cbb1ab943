import Resumable.Json.Basic
import Resumable.Script.Escape

/-! JSON values from text. -/
namespace Resumable.Json

def isSpace (c : Char) : Bool := c == ' ' || c == '\n' || c == '\t' || c == '\r'

def skipSpace : List Char → List Char := List.dropWhile isSpace

def simpleEscape? : Char → Option Nat
  | '"' => some 0x22
  | '\\' => some 0x5C
  | '/' => some 0x2F
  | 'b' => some 0x08
  | 'f' => some 0x0C
  | 'n' => some 0x0A
  | 'r' => some 0x0D
  | 't' => some 0x09
  | _ => none

def readPoints : Nat → List Char → Option (List Nat × List Char)
  | 0, _ => none
  | _, [] => none
  | fuel + 1, c :: rest =>
    if c == '"' then some ([], rest)
    else if c.toNat < 0x20 then none
    else if c == '\\' then
      match rest with
      | 'u' :: rest =>
        (Script.takeHex 4 rest).bind fun unit =>
          (readPoints fuel (rest.drop 4)).map fun (points, after) => (unit :: points, after)
      | mark :: rest =>
        (simpleEscape? mark).bind fun point =>
          (readPoints fuel rest).map fun (points, after) => (point :: points, after)
      | [] => none
    else (readPoints fuel rest).map fun (points, after) => (c.toNat :: points, after)

def joinPairs? : List Nat → Option (List Nat)
  | [] => some []
  | point :: rest =>
    if Script.isLowSurrogate point then none
    else if Script.isHighSurrogate point then
      match rest with
      | low :: rest =>
        if Script.isLowSurrogate low then
          (joinPairs? rest).map (Script.joinSurrogates point low :: ·)
        else none
      | [] => none
    else (joinPairs? rest).map (point :: ·)

def pointsString? (points : List Nat) : Option String :=
  (joinPairs? points).map fun points => String.ofList (points.map Char.ofNat)

def readDigits (text : List Char) : Option (List Char × List Char) :=
  match text.takeWhile Char.isDigit with
  | [] => none
  | digits => some (digits, text.drop digits.length)

def readWhole (text : List Char) : Option (List Char × List Char) :=
  match text with
  | '0' :: rest => if (rest.head?.map Char.isDigit).getD false then none else some (['0'], rest)
  | text => readDigits text

def readPlaces (text : List Char) : Option (List Char × List Char) :=
  match text with
  | '.' :: rest => (readDigits rest).map fun (digits, after) => ('.' :: digits, after)
  | text => some ([], text)

def readPower (text : List Char) : Option (List Char × List Char) :=
  match text with
  | mark :: rest =>
    if mark == 'e' || mark == 'E' then
      match rest with
      | sign :: more =>
        if sign == '+' || sign == '-' then
          (readDigits more).map fun (digits, after) => (mark :: sign :: digits, after)
        else (readDigits rest).map fun (digits, after) => (mark :: digits, after)
      | [] => none
    else some ([], text)
  | [] => some ([], [])

def readUnsigned (text : List Char) : Option (List Char × List Char) := do
  let (whole, rest) ← readWhole text
  let (places, rest) ← readPlaces rest
  let (power, rest) ← readPower rest
  return (whole ++ places ++ power, rest)

def readNumber (text : List Char) : Option (List Char × List Char) :=
  match text with
  | '-' :: rest => (readUnsigned rest).map fun (digits, after) => ('-' :: digits, after)
  | text => readUnsigned text

def readKeyword (word : String) (value : Json) (text : List Char) : Option (Json × List Char) :=
  if word.toList.isPrefixOf text then some (value, text.drop word.length) else none

def readKey (text : List Char) : Option (String × List Char) :=
  match skipSpace text with
  | '"' :: rest => do
    let (points, rest) ← readPoints (rest.length + 1) rest
    let key ← pointsString? points
    match skipSpace rest with
    | ':' :: rest => some (key, rest)
    | _ => none
  | _ => none

mutual

def readValue : Nat → List Char → Option (Json × List Char)
  | 0, _ => none
  | fuel + 1, text =>
    match skipSpace text with
    | '"' :: rest =>
      (readPoints (rest.length + 1) rest).map fun (points, after) =>
        (((pointsString? points).map string).getD broken, after)
    | '[' :: rest =>
      match skipSpace rest with
      | ']' :: after => some (array [], after)
      | rest => (readItems fuel rest).map fun (items, after) => (array items, after)
    | '\x7b' :: rest =>
      match skipSpace rest with
      | '\x7d' :: after => some (object [], after)
      | rest => (readFields fuel rest).map fun (fields, after) => (object fields, after)
    | 'n' :: rest => readKeyword "null" null ('n' :: rest)
    | 't' :: rest => readKeyword "true" (boolean true) ('t' :: rest)
    | 'f' :: rest => readKeyword "false" (boolean false) ('f' :: rest)
    | rest => (readNumber rest).map fun (digits, after) => (number (String.ofList digits), after)

def readItems : Nat → List Char → Option (List Json × List Char)
  | 0, _ => none
  | fuel + 1, text =>
    (readValue fuel text).bind fun (item, rest) =>
      match skipSpace rest with
      | ',' :: rest => (readItems fuel rest).map fun (items, after) => (item :: items, after)
      | ']' :: after => some ([item], after)
      | _ => none

def readFields : Nat → List Char → Option (List (String × Json) × List Char)
  | 0, _ => none
  | fuel + 1, text =>
    (readKey text).bind fun (key, rest) =>
      (readValue fuel rest).bind fun (value, rest) =>
        match skipSpace rest with
        | ',' :: rest => (readFields fuel rest).map fun (fields, after) => ((key, value) :: fields, after)
        | '\x7d' :: after => some ([(key, value)], after)
        | _ => none

end

def read? (text : String) : Option Json :=
  match readValue (2 * text.length + 2) text.toList with
  | some (value, rest) => if (skipSpace rest).isEmpty then some value else none
  | none => none

/-- The values of the named fields, in the order of the names. An object may hold other fields too
but each named one at most once; an array gives the fields by position and must not be longer.
A field that is not given is missing. -/
def fields? (names : List String) : Json → Option (List (Option Json))
  | object fields =>
    if names.all fun name => (fields.filter fun field => field.1 == name).length ≤ 1 then
      some (names.map fun name => (fields.find? fun field => field.1 == name).map (·.2))
    else none
  | array items =>
    if items.length ≤ names.length then
      some (items.map some ++ List.replicate (names.length - items.length) none)
    else none
  | _ => none

def allFields? (names : List String) (json : Json) : Option (List (Option Json)) :=
  match json with
  | array items => if items.length == names.length then fields? names json else none
  | json => fields? names json

def string? : Json → Option String
  | string value => some value
  | _ => none

def boolean? : Json → Option Bool
  | boolean value => some value
  | _ => none

def array? : Json → Option (List Json)
  | array items => some items
  | _ => none

def natBelow? (bound : Nat) : Json → Option Nat
  | number text =>
    if text.toList.all Char.isDigit then
      let value := text.toList.foldl (fun value c => value * 10 + (c.toNat - '0'.toNat)) 0
      if value < bound then some value else none
    else none
  | _ => none

def nullable? {α : Type} (read : Json → Option α) : Json → Option (Option α)
  | null => some none
  | value => (read value).map some

end Resumable.Json
