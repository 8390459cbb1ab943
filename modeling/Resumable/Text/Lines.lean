import Resumable.Text.Units

/-! Positions in a text. A line ends after a line feed and nowhere else, and columns count UTF-16
units, as readers of source maps do. -/
namespace Resumable.Text

structure Position where
  line : Nat
  column : Nat
  deriving DecidableEq, Repr

def startsAfter (offset : Nat) : List Char → List Nat
  | [] => []
  | c :: rest =>
    let next := offset + c.utf8Size
    if c = '\n' then next :: startsAfter next rest else startsAfter next rest

structure LineStarts where
  starts : List Nat
  deriving DecidableEq, Repr

def LineStarts.ofText (text : List Char) : LineStarts := ⟨0 :: startsAfter 0 text⟩

def LineStarts.lineOf (index : LineStarts) (offset : Nat) : Nat × Nat :=
  let reached := index.starts.takeWhile (· ≤ offset)
  (reached.length - 1, reached.getLast?.getD 0)

/-- Zero-based position of an offset. Past the end it is that of the end; inside a character the
column is zero. In a text of less than 2 ^ 32 bytes all numbers fit 32 bits. -/
def LineStarts.position (index : LineStarts) (text : List Char) (offset : Nat) : Position :=
  let (line, start) := index.lineOf offset
  let stop := min offset (byteLength text)
  ⟨line,((slice? text start stop).map unitLength).getD 0⟩

end Resumable.Text
