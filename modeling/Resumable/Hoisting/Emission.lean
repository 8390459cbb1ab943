import Resumable.Hoisting.Regions
import Resumable.Text.Lines

/-! Output text that knows where it comes from. It is a sequence of texts and of marks; a mark says
which offset of the source the text after it belongs to. -/
namespace Resumable

inductive Piece where
  | mark (offset : Nat)
  | text (chars : List Char)
  deriving DecidableEq, Repr

namespace Piece

def ofString (written : String) : List Piece := [.text written.toList]

def chars : Piece → List Char
  | .mark _ => []
  | .text written => written

def linesOf : List Char → List (List Char)
  | [] => []
  | c :: rest =>
    if c == '\n' then [c] :: linesOf rest
    else
      match linesOf rest with
      | [] => [[c]]
      | line :: lines => (c :: line) :: lines

def markLines : Nat → List (List Char) → List Piece
  | _, [] => []
  | offset, line :: rest => .mark offset :: .text line :: markLines (offset + Text.byteLength line) rest

def copy (source : List Char) (start stop : Nat) : List Piece :=
  if stop ≤ start then [] else markLines start (linesOf (Text.slice source start stop))

/-- A part of the source with edits made to it, which come in order and do not overlap. -/
def splice (source : List Char) (start stop : Nat) : List Edit → List Piece
  | [] => copy source start stop
  | edit :: rest =>
    copy source start edit.start ++ [.mark edit.start,.text edit.text.toList] ++
      splice source edit.stop stop rest

def code (pieces : List Piece) : List Char := pieces.flatMap chars

end Piece

structure Mapping where
  output : Text.Position
  source : Text.Position
  deriving DecidableEq, Repr

def advancePosition (position : Text.Position) (text : List Char) : Text.Position :=
  text.foldl (fun position c =>
      if c == '\n' then ⟨position.line + 1,0⟩
      else ⟨position.line,position.column + Text.units c⟩)
    position

def mappingsFrom (index : Text.LineStarts) (source : List Char) (position : Text.Position) :
    List Piece → List Mapping
  | [] => []
  | .mark offset :: rest =>
    ⟨position,index.position source offset⟩ :: mappingsFrom index source position rest
  | .text written :: rest => mappingsFrom index source (advancePosition position written) rest

def mappings (source : List Char) (pieces : List Piece) : List Mapping :=
  mappingsFrom (Text.LineStarts.ofText source) source ⟨0,0⟩ pieces

end Resumable
