import Resumable.Diagnostic

/-! Edits of a source text by byte range. An insertion is an edit of an empty range. -/
namespace Resumable

structure Edit where
  start : Nat
  stop : Nat
  text : String
  deriving DecidableEq, Repr

namespace Edit

def insert (offset : Nat) (text : String) : Edit := ⟨offset,offset,text⟩

/-- Order by start, then by end, so that an insertion comes before what it is inserted in front
of. -/
def before (a b : Edit) : Bool := a.start < b.start || (a.start == b.start && a.stop ≤ b.stop)

def sort (edits : List Edit) : List Edit := edits.mergeSort before

/-- The first edit of a sorted list that runs into its successor, with it. -/
def clash? : List Edit → Option (Edit × Edit)
  | first :: second :: rest =>
    if second.start < first.stop then some (first, second) else clash? (second :: rest)
  | _ => none

def range (edit : Edit) : String := toString edit.start ++ ".." ++ toString edit.stop

def clashDiagnostic (file : String) (first second : Edit) : Diagnostic :=
  { invariant := .overlappingEdits
    message := "Edit " ++ first.range ++ " overlaps edit " ++ second.range ++ "."
    file
    context := some (Text.shown first.text ++ " / " ++ Text.shown second.text) }

def check (file : String) (edits : List Edit) : Except Diagnostic (List Edit) :=
  let sorted := sort edits
  match clash? sorted with
  | some (first, second) => .error (clashDiagnostic file first second)
  | none => .ok sorted

end Edit

end Resumable
