import Resumable.Script.Blank
import Resumable.Text.Identifier
import Resumable.Text.Units

/-! Escape sequences, and the texts that string literals stand for. -/
namespace Resumable.Script

/-- A sequence after its backslash: the code points it stands for, what follows it, and its length
in bytes. -/
structure Escape where
  points : List Nat
  rest : List Char
  size : Nat
  valid : Bool := true
  deriving Repr

def takeHex (count : Nat) (text : List Char) : Option Nat :=
  let digits := text.take count
  if digits.length == count && digits.all Text.isHexDigit then
    some (digits.foldl (fun value c => value * 16 + Text.hexValue c) 0)
  else none

def isHighSurrogate (point : Nat) : Bool := 0xD800 ≤ point && point < 0xDC00
def isLowSurrogate (point : Nat) : Bool := 0xDC00 ≤ point && point < 0xE000
def isSurrogate (point : Nat) : Bool := isHighSurrogate point || isLowSurrogate point

def joinSurrogates (high low : Nat) : Nat := 0x10000 + (high - 0xD800) * 0x400 + (low - 0xDC00)

def readPoint (text : List Char) : Escape :=
  match text with
  | '\x7b' :: rest =>
    let digits := rest.takeWhile Text.isHexDigit
    let value := digits.foldl (fun value c => value * 16 + Text.hexValue c) 0
    match rest.drop digits.length with
    | '\x7d' :: after => ⟨[value],after,digits.length + 2,!digits.isEmpty && value ≤ 0x10FFFF⟩
    | after => ⟨[],after,digits.length + 1,false⟩
  | _ =>
    match takeHex 4 text with
    | some value => ⟨[value],text.drop 4,4,true⟩
    | none => ⟨[],text,0,false⟩

/-- A code point escape after the `u`. Two escapes of four digits that make a pair of surrogates
stand for one character. -/
def readUnicode (text : List Char) : Escape :=
  let first := readPoint text
  match first.points, first.size, first.rest with
  | [high], 4, '\\' :: 'u' :: rest =>
    match isHighSurrogate high, takeHex 4 rest with
    | true, some low =>
      if isLowSurrogate low then ⟨[joinSurrogates high low],rest.drop 4,10,true⟩ else first
    | _, _ => first
  | _, _, _ => first

def isOctal (c : Char) : Bool := '0' ≤ c && c ≤ '7'

def readOctal (text : List Char) : Escape :=
  let three := (text.take 3).takeWhile isOctal
  let value (digits : List Char) := digits.foldl (fun value c => value * 8 + Text.hexValue c) 0
  let digits := if value three ≤ 255 then three else three.take 2
  ⟨[value digits],text.drop digits.length,digits.length,true⟩

def controlEscape? : Char → Option Nat
  | 'n' => some 0x0A
  | 't' => some 0x09
  | 'r' => some 0x0D
  | 'b' => some 0x08
  | 'f' => some 0x0C
  | 'v' => some 0x0B
  | _ => none

def readEscape (template : Bool) (text : List Char) : Escape :=
  match text with
  | [] => ⟨[],[],0,false⟩
  | '\r' :: '\n' :: rest => ⟨[],rest,2,true⟩
  | c :: rest =>
    match controlEscape? c with
    | some point => ⟨[point],rest,1,true⟩
    | none =>
      if isLineBreak c then ⟨[],rest,c.utf8Size,true⟩
      else if c == 'x' then
        match takeHex 2 rest with
        | some value => ⟨[value],rest.drop 2,3,true⟩
        | none => ⟨[],rest,1,false⟩
      else if c == 'u' then
        let escape := readUnicode rest
        { escape with size := escape.size + 1 }
      else if c == '0' && !((rest.head?.map Text.isAsciiDigit).getD false) then ⟨[0],rest,1,true⟩
      else if Text.isAsciiDigit c && template then ⟨[],rest,1,false⟩
      else if isOctal c then readOctal text
      else ⟨[c.toNat],rest,c.utf8Size,true⟩

def replacement : Nat := 0xFFFD

/-- The text for a list of code points. A surrogate that stands alone becomes the replacement
character and four digits; a text with such a surrogate writes the replacement character itself
the same way. -/
def pointsText (points : List Nat) : String :=
  let lone := points.any isSurrogate
  String.ofList (points.flatMap fun point =>
    if isSurrogate point || (lone && point == replacement) then
      Char.ofNat replacement :: Text.paddedHex 4 point
    else [Char.ofNat point])

end Resumable.Script
