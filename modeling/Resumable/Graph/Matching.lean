import Resumable.Graph.Basic

/-! When two graphs have the same shape: the same values, and what is shared in one is shared in the
other in the same way. -/
namespace Resumable

abbrev Matching := List (CellId × CellId)

inductive MatchStatus where
  | known
  | new
  | conflict
  deriving DecidableEq, Repr

def Matching.status (matching : Matching) (left right : CellId) : MatchStatus :=
  match matching.find? fun pair => pair.1 == left, matching.find? fun pair => pair.2 == right with
  | some a, some b => if a.2 == right && b.1 == left then .known else .conflict
  | none, none => .new
  | _, _ => .conflict

/-- The parts of two cells side by side, if the cells agree in all else. Custom objects, and
functions whose making is not known, agree with nothing. -/
def Cell.pairs? : Cell → Cell → Option (List (Value × Value))
  | .array left, .array right => if left.length == right.length then some (left.zip right) else none
  | .object leftMaker left, .object rightMaker right =>
    if leftMaker == rightMaker && left.map (·.1) == right.map (·.1) then
      some ((left.map (·.2)).zip (right.map (·.2)))
    else none
  | .function _ (some left) _, .function _ (some right) _ =>
    if left.factory == right.factory && left.captured.length == right.captured.length then
      some (left.captured.zip right.captured)
    else none
  | .lazy left, .lazy right => if left == right then some [] else none
  | _, _ => none

namespace Graph

def leavesAgree (left right : Graph) : Value → Value → Bool
  | .node a, .node b => left.document.pathTo a == right.document.pathTo b
  | .node _, _ | _, .node _ => false
  | .ref _, _ | _, .ref _ => false
  | a, b => a.same b

/-- Whether all the pairs agree, or nothing if the fuel runs out first. -/
def agree (left right : Graph) : Nat → Matching → List (Value × Value) → Option Bool
  | _, _, [] => some true
  | 0, _, _ => none
  | fuel + 1, matching, (.ref a, .ref b) :: rest =>
    match left.cell? a, right.cell? b with
    | some leftCell, some rightCell =>
      let bothContain := leftCell.isContainer && rightCell.isContainer
      match if bothContain then matching.status a b else .new with
      | .known => left.agree right fuel matching rest
      | .conflict => some false
      | .new =>
        match leftCell.pairs? rightCell with
        | some pairs =>
          let matching := if bothContain then (a, b) :: matching else matching
          left.agree right fuel matching (pairs ++ rest)
        | none => some false
    | _, _ => some false
  | fuel + 1, matching, (a, b) :: rest =>
    if left.leavesAgree right a b then left.agree right fuel matching rest else some false

def comparisons (graph : Graph) : Nat := graph.cells.foldl (fun total cell => total + cell.parts.length) 1

def isLike (left right : Graph) (a b : Value) : Bool := left.agree right (left.comparisons + 1) [] [(a, b)] == some true

end Graph

end Resumable
