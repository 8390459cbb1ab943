import Resumable.Proofs.FailedRecording

/-! What is read from the text of a payload: the loaders and entries that were written, each of which
still says of its container or value what it said when it was written. Names, keys and strings may hold
anything. -/
namespace Resumable.Payload

namespace Recorder

variable {base : Graph} {recorder : Recorder} {entry : Entry}

lemma Defines.normal (defines : recorder.Defines base entry) : recorder.Defines base entry.normal := by
  cases defines with
  | makes contains shown => exact .makes contains shown
  | @fills slot cell leaves contains described =>
    rw [Entry.normal,Body.of_normal]
    exact .fills contains (List.forall₂_map_right_iff.2 (described.imp fun _ _ => Describes.normal))

end Recorder

/-- For every graph, custom objects included, and all values that are written without a failure, the
text of the payload is read, and gives the loaders that were used, no two of one name, and the entries
that were written, in order. Each entry makes or fills a container that it belongs to, and each value is
described by its own. -/
theorem payload_text_reads_back (graph : Graph) (values : List Value) {later : Recorder}
    (done : Recorder.recordAll { graph } values = (values.map fun _ => .ok (), later))
    (whole : graph.IsWhole) (there : ∀ id, .ref id ∈ values → id < graph.cells.length)
    (apart : Digest.TellsApart graph.UsesUrl) (tree : graph.document.IsTree)
    (cells : graph.cells.length ≤ UInt32.size) (nodes : graph.document.nodes.length ≤ 2 ^ 53) :
    Payload.ofText later.written.text =
        .ok ⟨later.loaders.map Loader.declared,
          later.definitions.map Entry.normal ++ (later.expressions.map Leaf.normal).map .value⟩ ∧
      (later.loaders.map Loader.name).Nodup ∧
      (∀ entry ∈ later.definitions.map Entry.normal, later.Defines graph entry) ∧
      values.Forall₂ (later.Describes graph) (later.expressions.map Leaf.normal) := by
  obtain ⟨settled, -⟩ := (Recorder.settled_start graph).recordAll done
  have steady : Recorder.Abreast (.none graph whole apart) later later := by
    have both := (Recorder.recordAll_abreast (@Recorder.abreast_start graph whole apart)
      (Recorder.covers_none there)).2
    rwa [done] at both
  refine ⟨?_, steady.1.distinct.names, ?_, ?_⟩
  · rw [Recorder.ofText_of_steady steady tree cells nodes]
    simp [Recorder.written, Written.entries, Entry.normal, Function.comp_def]
  · intro entry listed
    obtain ⟨written, member, rfl⟩ := List.mem_map.mp listed
    exact (settled.defined written member).normal
  · exact List.forall₂_map_right_iff.mpr (settled.described.imp fun _ _ => Recorder.Describes.normal)

/-- Keys and strings that mean something elsewhere, and a hook that copies the array that holds it. -/
def quoted : Graph where
  cells := [.object none [("__proto__", .string "use strict"),("capturedArgs", .ref 1)],
    .custom (.ref 2) true,.array [.symbol "');",.ref 0,.ref 1]]

theorem quoted_reads_back :
    let run := Recorder.recordAll { graph := quoted } [.string "use strict", .ref 0, .ref 1]
    run.1 = [.ok (), .ok (), .ok ()] ∧ Payload.ofText run.2.written.text = .ok ⟨[],
      [.allocate 0 .object, .allocate 1 .array,
        .fill 0 (.properties [("__proto__", .string "use strict"), ("capturedArgs", .ref 1)]),
        .fill 1 (.elements [.symbol "');", .ref 0, .ref 1]),
        .value (.string "use strict"), .value (.ref 0), .value (.ref 1)]⟩ := by
  intro run
  have outcomes : run.1 = [.ok (), .ok (), .ok ()] := rfl
  have none : ∀ cell ∈ quoted.cells, cell.named? = none := by decide
  obtain ⟨read, -⟩ := payload_text_reads_back quoted [.string "use strict", .ref 0, .ref 1]
    (Prod.ext outcomes rfl) (quoted.isWhole_of_has (by decide)) (quoted.lt_of_has (by decide))
    (fun ⟨cell, listed, target, named, _⟩ => absurd named (by simp [none cell listed]))
    Document.isTree_empty (by decide) (by decide)
  exact ⟨outcomes, read⟩

end Resumable.Payload
