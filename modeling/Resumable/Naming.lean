import Resumable.Text.Identifier
import Resumable.Text.Units

/-! Names for hoisted closures. A name is a readable stem and eight base-62 digits of a hash over
the closure's source text and its offset, so the same text at the same place is always called the
same. -/
namespace Resumable.Naming

def seed : UInt64 := 0xcbf29ce484222325
def multiplier : UInt64 := 0x9e3779b97f4a7c15

def rotateLeft5 (hash : UInt64) : UInt64 := (hash <<< 5) ||| (hash >>> 59)

def feed (hash : UInt64) (byte : UInt8) : UInt64 := (rotateLeft5 hash ^^^ byte.toUInt64) * multiplier

def littleEndian (word : UInt32) : List UInt8 :=
  [word.toUInt8,(word >>> 8).toUInt8,(word >>> 16).toUInt8,(word >>> 24).toUInt8]

def spanBytes (text : List UInt8) (offset salt : UInt32) : List UInt8 :=
  text ++ littleEndian offset ++ littleEndian salt

def avalanche (hash : UInt64) : UInt64 :=
  let first := hash ^^^ (hash >>> 33)
  let second := first * 0xff51afd7ed558ccd
  second ^^^ (second >>> 33)

/-- The hash of a text at an offset; the salt gives further choices when a name is taken. -/
def saltedHash (text : List UInt8) (offset salt : UInt32) : UInt64 :=
  avalanche ((spanBytes text offset salt).foldl feed seed)

def alphabet : List Char := "0123456789abcdefghijklmnopqrstuvwxyzABCDEFGHIJKLMNOPQRSTUVWXYZ".toList

def digits : Nat → Nat → List Char
  | 0, _ => []
  | count + 1, n => alphabet.getD (n % 62) '0' :: digits count (n / 62)

def encode (hash : UInt64) : List Char := digits 8 hash.toNat

def isNameStart (c : Char) : Bool := Text.isAsciiLetter c || c == '_' || c == '$'
def isNamePart (c : Char) : Bool := isNameStart c || Text.isAsciiDigit c

def isPlainName (name : String) : Bool :=
  match name.toList with
  | [] => false
  | first :: rest => isNameStart first && rest.all isNamePart

/-- The readable part of a name: at most 16 characters of the display name, each one that is not
allowed replaced by `_`, and never empty or starting with a digit. -/
def stem (name : Option String) : List Char :=
  let cleaned := ((name.getD "").toList.map fun c => if isNamePart c then c else '_').take 16
  match cleaned with
  | [] => ['_']
  | first :: rest => if Text.isAsciiDigit first then '_' :: first :: rest else first :: rest

def saltedAlias (name : Option String) (text : List UInt8) (offset salt : UInt32) : String :=
  String.ofList (stem name ++ '_' :: encode (saltedHash text offset salt))

def nameOfText (name : Option String) (text : List UInt8) (offset : UInt32) : String :=
  saltedAlias name text offset 0

structure Allocator where
  used : List String := []
  deriving Repr

namespace Allocator

def reserve (allocator : Allocator) (name : String) : Allocator :=
  { allocator with used := name :: allocator.used }

/-- The first free salt from `salt` on, among the next `tries` ones. -/
def freeSalt (allocator : Allocator) (name : Option String) (text : List UInt8) (offset : UInt32) :
    Nat → Nat → Nat
  | 0, salt => salt
  | tries + 1, salt =>
    if allocator.used.contains (saltedAlias name text offset (UInt32.ofNat salt)) then
      allocator.freeSalt name text offset tries (salt + 1)
    else salt

/-- Hands out a name that is not in use. The search is bounded by the number of salts. -/
def allocate (allocator : Allocator) (name : Option String) (text : List UInt8)
    (offset : UInt32) : String × Allocator :=
  let salt := allocator.freeSalt name text offset (UInt32.size - 1) 0
  let chosen := saltedAlias name text offset (UInt32.ofNat salt)
  (chosen, allocator.reserve chosen)

end Allocator

def thisName (offset : Nat) : String := "this_" ++ toString offset

def argumentsName (offset : Nat) : String := "arguments_" ++ toString offset

end Resumable.Naming
