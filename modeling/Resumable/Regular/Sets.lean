import Resumable.Text.Category

/-! Sets of characters as a regular expression writes them: ranges, named classes, and the set
operations on these. -/
namespace Resumable.Regular

inductive CharClass where
  | digit
  | space
  | word
  | letter
  | upper
  | lower
  | number
  | greek
  | latin
  | cyrillic
  | asciiAlpha
  | asciiBlank
  | asciiControl
  | asciiDigit
  | asciiGraph
  | asciiLower
  | asciiPrint
  | asciiPunctuation
  | asciiSpace
  | asciiUpper
  | asciiAlnum
  | asciiWord
  | asciiHex
  | ascii
  | any
  deriving DecidableEq, Repr

def greekRanges : List (Nat × Nat) :=
  [(0x370, 0x373),(0x375, 0x377),(0x37A, 0x37D),(0x37F, 0x37F),(0x384, 0x384),
   (0x386, 0x386),(0x388, 0x38A),(0x38C, 0x38C),(0x38E, 0x3A1),(0x3A3, 0x3E1),
   (0x3F0, 0x3FF),(0x1D26, 0x1D2A),(0x1D5D, 0x1D61),(0x1D66, 0x1D6A),(0x1DBF, 0x1DBF),
   (0x1F00, 0x1F15),(0x1F18, 0x1F1D),(0x1F20, 0x1F45),(0x1F48, 0x1F4D),(0x1F50, 0x1F57),
   (0x1F59, 0x1F59),(0x1F5B, 0x1F5B),(0x1F5D, 0x1F5D),(0x1F5F, 0x1F7D),(0x1F80, 0x1FB4),
   (0x1FB6, 0x1FC4),(0x1FC6, 0x1FD3),(0x1FD6, 0x1FDB),(0x1FDD, 0x1FEF),(0x1FF2, 0x1FF4),
   (0x1FF6, 0x1FFE),(0x2126, 0x2126),(0xAB65, 0xAB65),(0x10140, 0x1018E),
   (0x101A0, 0x101A0),(0x1D200, 0x1D245)]

def latinRanges : List (Nat × Nat) :=
  [(0x41, 0x5A),(0x61, 0x7A),(0xAA, 0xAA),(0xBA, 0xBA),(0xC0, 0xD6),(0xD8, 0xF6),
   (0xF8, 0x2B8),(0x2E0, 0x2E4),(0x1D00, 0x1D25),(0x1D2C, 0x1D5C),(0x1D62, 0x1D65),
   (0x1D6B, 0x1D77),(0x1D79, 0x1DBE),(0x1E00, 0x1EFF),(0x2071, 0x2071),(0x207F, 0x207F),
   (0x2090, 0x209C),(0x212A, 0x212B),(0x2132, 0x2132),(0x214E, 0x214E),(0x2160, 0x2188),
   (0x2C60, 0x2C7F),(0xA722, 0xA787),(0xA78B, 0xA7CD),(0xA7D0, 0xA7D1),(0xA7D3, 0xA7D3),
   (0xA7D5, 0xA7DC),(0xA7F2, 0xA7FF),(0xAB30, 0xAB5A),(0xAB5C, 0xAB64),(0xAB66, 0xAB69),
   (0xFB00, 0xFB06),(0xFF21, 0xFF3A),(0xFF41, 0xFF5A),(0x10780, 0x10785),
   (0x10787, 0x107B0),(0x107B2, 0x107BA),(0x1DF00, 0x1DF1E),(0x1DF25, 0x1DF2A)]

def cyrillicRanges : List (Nat × Nat) :=
  [(0x400, 0x484),(0x487, 0x52F),(0x1C80, 0x1C8A),(0x1D2B, 0x1D2B),(0x1D78, 0x1D78),
   (0x2DE0, 0x2DFF),(0xA640, 0xA69F),(0xFE2E, 0xFE2F),(0x1E030, 0x1E06D),
   (0x1E08F, 0x1E08F)]

def CharClass.holds : CharClass → Char → Bool
  | digit, c => Text.isDecimalDigit c
  | space, c => Text.isSpace c
  | word, c => Text.isWord c
  | letter, c => Text.isLetter c
  | upper, c => Text.isUpper c
  | lower, c => Text.isLower c
  | number, c => Text.isNumber c
  | greek, c => Text.inRanges greekRanges c.toNat
  | latin, c => Text.inRanges latinRanges c.toNat
  | cyrillic, c => Text.inRanges cyrillicRanges c.toNat
  | asciiAlpha, c => c.isAlpha
  | asciiBlank, c => c == ' ' || c == '\t'
  | asciiControl, c => c.toNat < 0x20 || c.toNat == 0x7F
  | asciiDigit, c => c.isDigit
  | asciiGraph, c => 0x21 ≤ c.toNat && c.toNat ≤ 0x7E
  | asciiLower, c => c.isLower
  | asciiPrint, c => 0x20 ≤ c.toNat && c.toNat ≤ 0x7E
  | asciiPunctuation, c => 0x21 ≤ c.toNat && c.toNat ≤ 0x7E && !c.isAlphanum
  | asciiSpace, c => c == ' ' || (0x09 ≤ c.toNat && c.toNat ≤ 0x0D)
  | asciiUpper, c => c.isUpper
  | asciiAlnum, c => c.isAlphanum
  | asciiWord, c => c.isAlphanum || c == '_'
  | asciiHex, c => c.isDigit || ('a' ≤ c && c ≤ 'f') || ('A' ≤ c && c ≤ 'F')
  | ascii, c => c.toNat < 128
  | any, _ => true

inductive SetOp where
  | union
  | intersection
  | difference
  | symmetricDifference
  deriving DecidableEq, Repr

inductive CharSet where
  | range (low high : Char)
  | named (members : CharClass)
  | complement (members : CharSet)
  | combine (op : SetOp) (left right : CharSet)
  | anyCase (members : CharSet)
  deriving DecidableEq, Repr

def spellings (c : Char) : List Char :=
  let folded := Text.fold c
  let capital := if 'a' ≤ folded && folded ≤ 'z' then [Char.ofNat (folded.toNat - 32)] else []
  let others := Text.foldRuns.filterMap fun (low, high, step, distance) =>
    let code := Int.toNat ((folded.toNat : Int) - distance)
    if low ≤ code && code ≤ high && (code - low) % step == 0 then some (Char.ofNat code) else none
  folded :: capital ++ others

def SetOp.combine : SetOp → Bool → Bool → Bool
  | union, left, right => left || right
  | intersection, left, right => left && right
  | difference, left, right => left && !right
  | symmetricDifference, left, right => left != right

def CharSet.holds : CharSet → Char → Bool
  | range low high, c => low ≤ c && c ≤ high
  | named members, c => members.holds c
  | complement members, c => !members.holds c
  | combine op left right, c => op.combine (left.holds c) (right.holds c)
  | anyCase members, c => (spellings c).any members.holds

namespace CharSet

def single (c : Char) : CharSet := range c c

def none : CharSet := complement (named .any)

end CharSet

end Resumable.Regular
