import Resumable.Script.Span

/-! Blanks and comments: what stands between two tokens. -/
namespace Resumable.Script

def isLineBreak (c : Char) : Bool := c == '\n' || c == '\r' || c.toNat == 0x2028 || c.toNat == 0x2029

def isBlank (c : Char) : Bool :=
  c == ' ' || c == '\t' || c.toNat == 0x0B || c.toNat == 0x0C || c.toNat == 0x85 ||
  c.toNat == 0xA0 || c.toNat == 0x1680 || (0x2000 ≤ c.toNat && c.toNat ≤ 0x200B) ||
  c.toNat == 0x202F || c.toNat == 0x205F || c.toNat == 0x3000 || c.toNat == 0xFEFF

/-- What is being passed over. A block comment remembers where it starts; each of its two marks
has a second character. -/
inductive Passing where
  | blanks
  | line
  | opening (start : Nat)
  | block (start : Nat)
  | closing
  deriving DecidableEq, Repr

structure Passed where
  rest : List Char
  offset : Nat
  newline : Bool
  fault : Option Fault := none
  deriving Repr

/-- Whether the rest of the line is hidden. Where `markup` is set, so do the two marks of a markup
comment: the opening one anywhere, the closing one at the start of a line. -/
def opensLineComment (markup newline : Bool) (text : List Char) : Bool :=
  "//".toList.isPrefixOf text ||
    (markup && ("<!--".toList.isPrefixOf text || (newline && "-->".toList.isPrefixOf text)))

/-- What is passed over after the first character of a text, and whether a line break has been;
no result if that character is not passed over. -/
def Passing.step? (markup newline : Bool) (offset : Nat) (c : Char) (rest : List Char) :
    Passing → Option (Passing × Bool)
  | blanks =>
    if isLineBreak c then some (blanks, true)
    else if isBlank c then some (blanks, newline)
    else if opensLineComment markup newline (c :: rest) then some (line, newline)
    else if "/*".toList.isPrefixOf (c :: rest) then some (opening offset, newline)
    else none
  | line => if isLineBreak c then some (blanks, true) else some (line, newline)
  | opening start => some (block start, newline)
  | block start =>
    if "*/".toList.isPrefixOf (c :: rest) then some (closing, newline)
    else some (block start, newline || isLineBreak c)
  | closing => some (blanks, newline)

def Passing.fault? : Passing → Option Fault
  | opening start | block start => some ⟨start,.unterminated "comment"⟩
  | _ => none

/-- Passes blanks and comments. A block comment that does not end takes all that follows. -/
def pass (markup : Bool) : Passing → Bool → Nat → List Char → Passed
  | passing, newline, offset, [] => { rest := [], offset, newline, fault := passing.fault? }
  | passing, newline, offset, c :: rest =>
    match passing.step? markup newline offset c rest with
    | some (passing, newline) => pass markup passing newline (offset + c.utf8Size) rest
    | none => { rest := c :: rest, offset, newline }

end Resumable.Script
