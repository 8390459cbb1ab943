import Mathlib.Data.List.Find
import Resumable.Graph.Matching
import Resumable.Proofs.Recording

/-! When a comparison succeeds. It does if some one-to-one relation of containers keeps what the
containers hold: the matching stays within the relation, and each container is entered at most
once. -/
namespace Resumable
open List

/-- What containers have in common that agree in all but their parts. -/
inductive Make where
  | array
  | object (maker : Option ExportName) (keys : List String)
  | function (factory : ExportName)
  deriving DecidableEq, Repr

/-- Functions whose making is not known have no make. -/
def Cell.make? : Cell → Option Make
  | .array _ => some .array
  | .object maker properties => some (.object maker (properties.map (·.1)))
  | .function _ origin _ => origin.map fun origin => .function origin.factory
  | .lazy _ | .custom _ _ => none

lemma Cell.isContainer_of_make? {cell : Cell} (made : cell.make? = some make) : cell.isContainer = true := by
  cases cell with
  | lazy | custom => cases made
  | _ => rfl

/-- What values have in common that agree, if containers agree that they refer to. -/
inductive Label where
  | plain (value : Value)
  | node (path : List Nat)
  | lazy (target : ExportName)
  | container
  deriving DecidableEq, Repr

namespace Graph

/-- Custom objects, and functions whose making is not known, have no label. -/
def label? (graph : Graph) : Value → Option Label
  | .number x => some (.plain (.number x.normal))
  | .date x => some (.plain (.date x.normal))
  | .node id => some (.node (graph.document.pathTo id))
  | .ref id =>
    match graph.cell? id with
    | some (.lazy target) => some (.lazy target)
    | some cell => cell.make?.map fun _ => .container
    | none => none
  | value => some (.plain value)

variable {left right : Graph} {relation : CellId → CellId → Prop} {x y : CellId} {cell cell' : Cell}
  {matching : Matching} {v w : Value} {pairs : List (Value × Value)}

def Matches (left right : Graph) (relation : CellId → CellId → Prop) (v w : Value) : Prop :=
  ∃ label, left.label? v = some label ∧ right.label? w = some label ∧
    (label = .container → ∃ x y, v = .ref x ∧ w = .ref y ∧ relation x y)

/-- Containers of one make whose parts match one by one. -/
def CellsMatch (left right : Graph) (relation : CellId → CellId → Prop) (x y : CellId) : Prop :=
  ∃ first second make, left.cell? x = some first ∧ right.cell? y = some second ∧
    first.make? = some make ∧ second.make? = some make ∧
    first.parts.Forall₂ (Matches left right relation) second.parts

/-- A one-to-one relation of containers that agree in all they hold. -/
structure Likeness (left right : Graph) (relation : CellId → CellId → Prop) : Prop where
  functional : ∀ {x y z}, relation x y → relation x z → y = z
  injective : ∀ {x y z}, relation x z → relation y z → x = y
  cells : ∀ {x y}, relation x y → CellsMatch left right relation x y

/-! ### Values and cells that match -/

lemma label_of_make (found : left.cell? x = some cell) (made : cell.make? = some make) :
    left.label? (.ref x) = some .container := by
  cases cell with
  | lazy | custom => cases made
  | _ => simp [label?,found,made]

/-- The parts of containers of one make are compared, and of references to exports nothing. -/
lemma pairs?_eq_some : cell.pairs? cell' = some pairs ↔
    (pairs = cell.parts.zip cell'.parts ∧ cell.parts.length = cell'.parts.length ∧
      ∃ make, cell.make? = some make ∧ cell'.make? = some make) ∨
    pairs = [] ∧ ∃ target, cell = .lazy target ∧ cell' = .lazy target := by
  cases cell with
  | object maker fields =>
    cases cell' with
    | object maker' fields' =>
      have lengths : fields.map (·.1) = fields'.map (·.1) → fields.length = fields'.length := fun same => by
        simpa using congrArg length same
      simp [Cell.pairs?,Cell.make?,Cell.parts]
      grind
    | _ => simp [Cell.pairs?,Cell.make?]
  | function name origin module =>
    cases cell' with
    | function name' origin' module' =>
      cases origin <;> cases origin' <;> simp [Cell.pairs?,Cell.make?,Cell.parts]
      grind
    | _ => cases origin <;> simp [Cell.pairs?,Cell.make?]
  | _ => cases cell' <;> simp [Cell.pairs?,Cell.make?,Cell.parts] <;> grind

lemma same_iff_normal {x y : Number} : x.same y = true ↔ x.normal = y.normal := by
  have nan : Number.nan.isNaN = true := by decide
  have whole : x.bits = y.bits → x = y := fun bits => by
    cases x
    cases y
    cases bits
    rfl
  simp only [Number.same,Bool.or_eq_true,Bool.and_eq_true,beq_iff_eq,Number.normal]
  split <;> split <;> grind

/-- Values that refer to no cell agree if they have one label. -/
lemma leavesAgree_iff : left.leavesAgree right v w = true ↔
    (∀ x, v ≠ .ref x) ∧ (∀ y, w ≠ .ref y) ∧ left.label? v = right.label? w := by
  cases v <;> cases w <;> simp [leavesAgree,label?,Value.same,same_iff_normal]

lemma lazy_of_label (labelled : left.label? v = some (.lazy target)) :
    ∃ x, v = .ref x ∧ left.cell? x = some (.lazy target) := by
  cases v with
  | ref x =>
    refine ⟨x,rfl,?_⟩
    simp only [label?] at labelled
    split at labelled
    · rename_i found
      cases labelled
      exact found
    · simp at labelled
    · cases labelled
  | _ => simp [label?] at labelled

/-- Values that match are related, or references to one export, or agree as they are. -/
lemma Matches.cases (matched : Matches left right relation v w) : (∃ x y, v = .ref x ∧ w = .ref y ∧ relation x y) ∨
    (∃ x y target, v = .ref x ∧ w = .ref y ∧ left.cell? x = some (.lazy target) ∧
      right.cell? y = some (.lazy target)) ∨ left.leavesAgree right v w = true := by
  obtain ⟨label,first,second,refs⟩ := matched
  have leaf {graph : Graph} {v : Value} {x : CellId} (same : v = .ref x) (labelled : graph.label? v = some label) :
      label = .container ∨ ∃ target, label = .lazy target := by
    subst same
    simp only [label?] at labelled
    split at labelled
    · exact .inr ⟨_,(Option.some.inj labelled).symm⟩
    · exact .inl (Option.map_eq_some_iff.1 labelled).choose_spec.2.symm
    · cases labelled
  by_cases container : label = .container
  · exact .inl (refs container)
  · by_cases isLazy : ∃ target, label = .lazy target
    · obtain ⟨target,rfl⟩ := isLazy
      obtain ⟨x,rfl,foundX⟩ := lazy_of_label first
      obtain ⟨y,rfl,foundY⟩ := lazy_of_label second
      exact .inr (.inl ⟨x,y,target,rfl,rfl,foundX,foundY⟩)
    · refine .inr (.inr (leavesAgree_iff.2 ⟨fun x same => ?_,fun y same => ?_,first.trans second.symm⟩))
      · exact (leaf same first).elim container isLazy
      · exact (leaf same second).elim container isLazy

/-! ### The measure of a comparison -/

def size (graph : Graph) (id : CellId) : Nat := ((graph.cell? id).map fun cell => cell.parts.length).getD 0

def unentered (graph : Graph) (matching : Matching) : Nat :=
  ∑ id ∈ (Finset.range graph.cells.length).filter (· ∉ matching.map Prod.fst), graph.size id

lemma unentered_nil (graph : Graph) : graph.unentered [] = (graph.cells.map fun cell => cell.parts.length).sum := by
  have total (cells : List Cell) :
      ∑ id ∈ Finset.range cells.length, ((cells[id]?).map fun cell => cell.parts.length).getD 0 =
        (cells.map fun cell => cell.parts.length).sum := by
    induction cells with
    | nil => simp
    | cons cell cells ih =>
      rw [length_cons,Finset.sum_range_succ']
      simp [ih,Nat.add_comm]
  simpa [unentered,size,cell?] using total graph.cells

lemma comparisons_eq (graph : Graph) : graph.comparisons = 1 + graph.unentered [] := by
  have from_ (cells : List Cell) (start : Nat) : cells.foldl (fun total cell => total + cell.parts.length) start =
        start + (cells.map fun cell => cell.parts.length).sum := by
    induction cells generalizing start with
    | nil => simp
    | cons cell cells ih => simp [ih,Nat.add_assoc]
  rw [unentered_nil,comparisons,from_]

lemma size_add_unentered (found : left.cell? x = some cell) (new : x ∉ matching.map Prod.fst) (y : CellId) :
    cell.parts.length + left.unentered ((x, y) :: matching) = left.unentered matching := by
  have member : x ∈ (Finset.range left.cells.length).filter (· ∉ matching.map Prod.fst) := by
    have bound : x < left.cells.length := (List.getElem?_eq_some_iff.1 found).1
    simp [bound,new]
  have rest : (Finset.range left.cells.length).filter (· ∉ ((x, y) :: matching).map Prod.fst) =
      ((Finset.range left.cells.length).filter (· ∉ matching.map Prod.fst)).erase x := by
    ext id
    simp only [map_cons,mem_cons,not_or,Finset.mem_filter,Finset.mem_erase]
    tauto
  have here : left.size x = cell.parts.length := by simp [size,found]
  rw [unentered,unentered,rest,← here]
  exact Finset.add_sum_erase _ left.size member

/-! ### Comparisons -/

lemma status_known (known : matching.status x y = .known) : (x, y) ∈ matching := by
  unfold Matching.status at known
  grind [mem_of_find?_eq_some]

lemma status_new (new : matching.status x y = .new) : ∀ pair ∈ matching, pair.1 ≠ x ∧ pair.2 ≠ y := by
  unfold Matching.status at new
  grind [find?_eq_none]

/-- What a comparison does with two cells that do not differ: it has entered them together, it enters them now, or
they are references to one export. -/
lemma agree_ref (goes : left.agree right (fuel + 1) matching ((.ref x, .ref y) :: rest) = result)
    (other : result ≠ some false) : (x, y) ∈ matching ∧ left.agree right fuel matching rest = result ∨
    (∃ first second make, left.cell? x = some first ∧ right.cell? y = some second ∧
      first.make? = some make ∧ second.make? = some make ∧
      first.parts.length = second.parts.length ∧ (∀ pair ∈ matching, pair.1 ≠ x ∧ pair.2 ≠ y) ∧
      left.agree right fuel ((x, y) :: matching) (first.parts.zip second.parts ++ rest) = result) ∨
    ∃ target, left.cell? x = some (.lazy target) ∧ right.cell? y = some (.lazy target) ∧
      left.agree right fuel matching rest = result := by
  simp only [agree] at goes
  cases foundX : left.cell? x with
  | none => simp [foundX,other.symm] at goes
  | some first =>
    cases foundY : right.cell? y with
    | none => simp [foundX,foundY,other.symm] at goes
    | some second =>
      simp only [foundX,foundY] at goes
      split at goes
      · rename_i known
        split at known
        · exact .inl ⟨status_known known,goes⟩
        · cases known
      · exact absurd goes.symm other
      · rename_i new
        split at goes
        · rename_i pairs compared
          rcases pairs?_eq_some.1 compared with ⟨rfl,lengths,make,makeX,makeY⟩ | ⟨rfl,target,rfl,rfl⟩
          · simp only [Cell.isContainer_of_make? makeX,Cell.isContainer_of_make? makeY,Bool.and_self,
              if_true] at new goes
            exact .inr (.inl ⟨first,second,make,rfl,rfl,makeX,makeY,lengths,status_new new,goes⟩)
          · exact .inr (.inr ⟨target,rfl,rfl,goes⟩)
        · exact absurd goes.symm other

lemma agree_leaf (leaf : ¬∃ x y, v = .ref x ∧ w = .ref y)
    (goes : left.agree right (fuel + 1) matching ((v, w) :: rest) = result) (other : result ≠ some false) :
    left.leavesAgree right v w = true ∧ left.agree right fuel matching rest = result := by
  rw [agree] at goes
  · split at goes
    · exact ⟨‹_›,goes⟩
    · exact absurd goes.symm other
  · exact fun x y isV isW => leaf ⟨x,y,isV,isW⟩

/-- A comparison ends: the parts of a cell pay for the pairs that it adds. -/
lemma agree_ends (enough : pairs.length + left.unentered matching ≤ fuel) :
    left.agree right fuel matching pairs ≠ none := by
  induction fuel generalizing matching pairs with
  | zero =>
    obtain rfl : pairs = [] := length_eq_zero_iff.1 (by omega)
    simp [agree]
  | succ fuel ih =>
    cases pairs with
    | nil => simp [agree]
    | cons pair rest =>
      intro stopped
      have onward : left.agree right fuel matching rest ≠ none := by
        refine ih ?_
        simp only [length_cons] at enough
        omega
      by_cases refs : ∃ x y, pair.1 = .ref x ∧ pair.2 = .ref y
      · obtain ⟨v,w⟩ := pair
        obtain ⟨x,y,rfl,rfl⟩ := refs
        rcases agree_ref stopped (by simp) with ⟨-,stopped⟩ | ⟨first,second,-,found,-,-,-,-,new,stopped⟩ |
          ⟨-,-,-,stopped⟩
        · exact onward stopped
        · have paid := size_add_unentered found (by simpa using fun z listed => (new (x, z) listed).1 rfl) y
          refine ih ?_ stopped
          simp only [length_append,length_zip,length_cons] at enough ⊢
          omega
        · exact onward stopped
      · exact onward (agree_leaf refs stopped (by simp)).2

lemma agree_ne_none (enough : left.comparisons < fuel) : left.agree right fuel [] [(v, w)] ≠ none := by
  rw [comparisons_eq] at enough
  exact agree_ends enough.le

section
variable (likeness : Likeness left right relation)
include likeness

lemma Likeness.status (within : ∀ pair ∈ matching, relation pair.1 pair.2) (here : relation x y) :
    matching.status x y = if x ∈ matching.map Prod.fst then .known else .new := by
  have same : ∀ pair ∈ matching, (pair.1 == x) = (pair.2 == y) := by
    intro pair member
    have related := within pair member
    rw [Bool.eq_iff_iff,beq_iff_eq,beq_iff_eq]
    exact ⟨fun is => likeness.functional related (is ▸ here),fun is => likeness.injective related (is ▸ here)⟩
  have listed : x ∈ matching.map Prod.fst ↔ (matching.find? fun pair => pair.2 == y).isSome = true := by
    simp only [find?_isSome,mem_map]
    grind
  rw [Matching.status,find?_congr same]
  simp only [listed]
  cases found : matching.find? fun pair => pair.2 == y with
  | none => rfl
  | some pair =>
    have is := find?_some found
    have also := same pair (mem_of_find?_eq_some found)
    rw [is] at also
    simp [beq_iff_eq.1 is,beq_iff_eq.1 also]

/-- A comparison of values that match does not fail. -/
lemma Likeness.agree (fuel : Nat) (matching : Matching)
    (pairs : List (Value × Value)) (within : ∀ pair ∈ matching, relation pair.1 pair.2)
    (matched : ∀ pair ∈ pairs, Matches left right relation pair.1 pair.2) :
    left.agree right fuel matching pairs ≠ some false := by
  induction fuel generalizing matching pairs with
  | zero => cases pairs with | nil | cons => simp [Graph.agree]
  | succ fuel ih =>
    cases pairs with
    | nil => simp [Graph.agree]
    | cons pair rest =>
      obtain ⟨first,second⟩ := pair
      obtain ⟨here,others⟩ := forall_mem_cons.1 matched
      have onward := ih matching rest within others
      rcases here.cases with ⟨x,y,rfl,rfl,related⟩ | ⟨x,y,target,rfl,rfl,foundX,foundY⟩ | same
      · obtain ⟨cell,other,make,foundX,foundY,makeX,makeY,parts⟩ := likeness.cells related
        have compared := pairs?_eq_some.2 (.inl ⟨rfl,parts.length_eq,make,makeX,makeY⟩)
        simp only [Graph.agree,foundX,foundY,Cell.isContainer_of_make? makeX,Cell.isContainer_of_make? makeY,
          Bool.and_self,if_true,likeness.status within related]
        by_cases entered : x ∈ matching.map Prod.fst
        · simpa only [entered,if_true] using onward
        · simp only [entered,if_false,compared]
          exact ih ((x, y) :: matching) _ (forall_mem_cons.2 ⟨related,within⟩)
            (forall_mem_append.2 ⟨fun pair listed => (forall₂_iff_zip.1 parts).2 listed,others⟩)
      · simpa [Graph.agree,foundX,foundY,Cell.isContainer,Cell.pairs?] using onward
      · rw [Graph.agree]
        · rwa [if_pos same]
        · rintro x y rfl rfl
          simp [leavesAgree] at same

/-- A comparison of values that match succeeds if it may go on for long enough. -/
lemma Likeness.agrees (matched : Matches left right relation v w) (enough : left.comparisons < fuel) :
    left.agree right fuel [] [(v, w)] = some true := by
  have fails := likeness.agree fuel [] [(v, w)] (by simp) (by simpa using matched)
  obtain ⟨result,ends⟩ := Option.ne_none_iff_exists'.1 (agree_ne_none enough)
  rw [ends] at fails ⊢
  simpa using fails

lemma Likeness.isLike (matched : Matches left right relation v w) : left.isLike right v w = true :=
  beq_iff_eq.2 (likeness.agrees matched (Nat.lt_succ_self _))

end

end Graph
end Resumable
