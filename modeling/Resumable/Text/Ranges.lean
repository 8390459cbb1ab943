/-! Sets of characters given by code point ranges. -/
namespace Resumable.Text

def inRanges (ranges : List (Nat × Nat)) (code : Nat) : Bool :=
  ranges.any fun (low, high) => low ≤ code && code ≤ high

/-- Ranges written as distances: from the end of the last range to the start of the next one, and from
there to its end. -/
def rangesFrom (last : Nat) : List Nat → List (Nat × Nat)
  | gap :: length :: rest =>
    let low := last + gap
    (low, low + length) :: rangesFrom (low + length) rest
  | _ => []

def inTurns (ranges : List (Nat × Nat)) (code : Nat) : Bool :=
  ranges.any fun (low, high) => low ≤ code && code ≤ high && (code - low) % 2 == 0

end Resumable.Text
