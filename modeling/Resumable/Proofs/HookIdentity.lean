import Resumable.Proofs.Slots

/-! Which slot a custom object is written by. Its hooks lead to a container, or to a copy of it. -/
namespace Resumable
open Payload
variable {graph : Graph} {hook id : CellId} {cell : Cell} {fresh : Bool} {value : Value} {leaf : Leaf}

/-- Hooks that lead from a custom object to another cell. The last of them may answer copies of it. -/
def Graph.Chains (graph : Graph) (hook id : CellId) (fresh : Bool) : Prop :=
  ∃ last, Relation.ReflTransGen graph.Answers hook last ∧ graph.cell? last = some (.custom (.ref id) fresh)

namespace Graph.Chains

section
variable (chain : graph.Chains hook id fresh)
include chain

lemma isCustom : graph.IsCustom hook := by
  obtain ⟨last,answers,custom⟩ := chain
  rcases answers.cases_head with rfl | ⟨next,⟨fresh,there⟩,-⟩
  · exact ⟨_,_,custom⟩
  · exact ⟨_,_,there⟩

lemma ends {later : Graph} {plain : Value} (there : graph.cell? id = some cell) (contains : cell.isContainer = true)
    (copied : graph.Copied later) (leads : graph.Leads later (.ref hook) plain) :
    plain = .ref id ∨ (fresh = true ∧ cell.isCopied = true) ∧ ∃ copy, plain = .ref copy ∧
    graph.cells.length ≤ copy ∧ later.cell? copy = some cell := by
  obtain ⟨last,answers,custom⟩ := chain
  induction answers using Relation.ReflTransGen.head_induction_on with
  | refl =>
    cases leads with
    | here plain => exact absurd ⟨_,_,custom⟩ (plain _ rfl)
    | hook found _ rest =>
      cases custom.symm.trans found
      cases rest with
      | here => exact .inl rfl
      | hook found | copy found =>
        cases there.symm.trans found
        cases contains
    | copy found like isCopied new copy =>
      cases custom.symm.trans found
      cases (copied.cell? there).symm.trans like
      exact .inr ⟨⟨rfl,isCopied⟩,_,rfl,new,copy⟩
  | @head first next answers rest ih =>
    obtain ⟨_,found⟩ := answers
    obtain ⟨target,_,onward⟩ := isCustom ⟨last,rest,custom⟩
    cases leads with
    | here plain => exact absurd ⟨_,_,found⟩ (plain _ rfl)
    | hook same _ rest =>
      cases found.symm.trans same
      exact ih rest
    | copy same like isCopied =>
      cases found.symm.trans same
      cases (copied.cell? onward).symm.trans like
      cases isCopied

lemma noted {recorder : Recorder} (there : graph.cell? id = some cell) (contains : cell.isContainer = true)
    (copied : graph.Copied recorder.graph) (notes : recorder.Notes graph (.ref hook) leaf) :
    ∃ slot, leaf = .ref slot ∧ recorder.Contains graph slot cell ∧
    ((fresh = true → cell.isCopied = false) → recorder.slot? id = some slot) ∧
    (graph.IsFirm hook → recorder.slot? hook = some slot) := by
  cases used : leaf.slot? with
  | none =>
    obtain ⟨plain,leads,other⟩ := notes.bare used
    have whole : graph.Copied graph := ⟨[],by simp,by simp⟩
    rcases chain.ends there contains whole leads with same | ⟨-,copy,-,new,found⟩
    · cases contains.symm.trans (other id cell same there)
    · exact absurd (List.getElem?_eq_some_iff.1 found).1 (Nat.not_lt.2 new)
  | some slot =>
    have kept := fun firm => notes.kept rfl chain.isCustom firm used
    cases notes.describes with
    | missing => cases used
    | shows leads shown =>
      cases shown with
      | @container owner _ held =>
        cases used
        refine ⟨slot,rfl,?_,fun shared => ?_,kept⟩ <;>
          rcases chain.ends there contains copied leads with ⟨⟨rfl⟩⟩ | ⟨⟨isFresh,isCopied⟩,copy,⟨rfl⟩,-,found⟩
        · exact ⟨id,leads.plain id rfl,held,copied.cell? there⟩
        · exact ⟨owner,leads.plain owner rfl,held,found⟩
        · exact held
        · cases (shared isFresh).symm.trans isCopied
      | _ => cases used

end

end Graph.Chains

lemma Payload.Recorder.Writes.imp {recorder : Recorder} {values : List Value}
    {holds holds' : Value → Leaf → Prop} (writes : recorder.Writes graph values holds)
    (step : ∀ value leaf, holds value leaf → holds' value leaf) : recorder.Writes graph values holds' := by
  refine ⟨writes.roots.imp step,fun slot body member => ?_⟩
  obtain ⟨cell,leaves,contains,equal,parts⟩ := writes.parts slot body member
  exact ⟨cell,leaves,contains,equal,parts.imp step⟩

/-- A custom object whose hooks lead to a container is written as a slot that holds the container or a copy
of it, wherever it is met. It is the same slot each time, unless the hooks make copies and another hook
answers with the object. -/
theorem hooks_keep_identity (graph : Graph) (values : List Value) {later : Recorder}
    (done : Recorder.recordAll { graph } values = (values.map fun _ => .ok (), later))
    {hook id : CellId} {cell : Cell} {fresh : Bool} (chain : graph.Chains hook id fresh)
    (there : graph.cell? id = some cell) (contains : cell.isContainer = true) :
    later.Writes graph values (fun value leaf => value = .ref hook → ∃ slot, leaf = .ref slot ∧
      later.Contains graph slot cell) ∧
    ((fresh = true → cell.isCopied = false) ∨ (∀ other, ¬graph.Answers other hook) →
      ∃ slot, later.Writes graph values fun value leaf => value = .ref hook → leaf = .ref slot) := by
  have settled := ((Recorder.settled_start graph).recordAll done).1
  have noted {leaf} := @chain.noted _ _ _ _ _ leaf later there contains settled.slotted.copied
  refine ⟨settled.writes.imp ?_,?_⟩
  · rintro _ leaf notes rfl
    obtain ⟨slot,equal,held,-⟩ := noted notes
    exact ⟨slot,equal,held⟩
  · rintro (shared | firm)
    · refine ⟨(later.slot? id).getD 0,settled.writes.imp ?_⟩
      rintro _ leaf notes rfl
      obtain ⟨slot,rfl,-,held,-⟩ := noted notes
      rw [held shared,Option.getD_some]
    · refine ⟨(later.slot? hook).getD 0,settled.writes.imp ?_⟩
      rintro _ leaf notes rfl
      obtain ⟨slot,rfl,-,-,held⟩ := noted notes
      rw [held fun _ => firm,Option.getD_some]

/-- A hook that copies an empty array each time, and one that answers with it. -/
def answeredTwice : Graph where
  cells := [.array [],.custom (.ref 0) true,.custom (.ref 1) false]

theorem answeredTwice_loses_identity :
    let run := Recorder.recordAll { graph := answeredTwice } [.ref 1,.ref 2,.ref 1]
    run.1 = [.ok (),.ok (),.ok ()] ∧ run.2.expressions = [.ref 0,.ref 1,.ref 1] := ⟨rfl,rfl⟩

theorem answeredTwice_keeps_identity :
    let run := Recorder.recordAll { graph := answeredTwice } [.ref 2,.ref 1,.ref 2]
    run.2.expressions = [.ref 0,.ref 0,.ref 0] ∧
      ∃ slot, run.2.Writes answeredTwice [.ref 2,.ref 1,.ref 2] fun value leaf =>
        value = .ref 2 → leaf = .ref slot := by
  intro run
  have chain : answeredTwice.Chains 2 0 true := ⟨1,.single ⟨false,rfl⟩,rfl⟩
  refine ⟨rfl,(hooks_keep_identity answeredTwice [.ref 2,.ref 1,.ref 2] (Prod.ext rfl rfl) chain rfl rfl).2
    (.inr ?_)⟩
  rintro other ⟨fresh,found⟩
  match other, found with
  | 0, found | 1, found | 2, found => cases found
  | _ + 3, found => cases found

end Resumable
