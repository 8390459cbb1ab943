import Resumable.Proofs.Slots

/-! Recordings of graphs that can be written. No custom object is met, so nothing fails and nothing is
copied, and every slot stands for a container that is reached. -/
namespace Resumable
open List

lemma Graph.Portable.not_custom {graph : Graph} (portable : graph.Portable roots)
    (reached : graph.Reaches roots (.ref a)) : ¬graph.IsCustom a := by
  rintro ⟨target,fresh,custom⟩
  obtain ⟨cell,found,plain⟩ := portable.cells reached
  cases found.symm.trans custom
  cases plain

namespace Payload

lemma Body.of_normal (cell : Cell) (leaves : List Leaf) :
    (Body.of cell leaves).normal = Body.of cell (leaves.map Leaf.normal) := by
  cases cell with
  | object maker fields => exact congrArg Body.properties (zip_map_right ..).symm
  | _ => rfl

namespace Recorder

variable {graph : Graph} {roots values : List Value} {recorder later : Recorder} {pending : Pending}
  {value : Value} {leaf : Leaf} {leaves : List Leaf} {id : CellId} {slot : Nat} {cell : Cell}

/-! ### Nothing fails -/

/-- What a recorder has taken belongs to what is reached. -/
structure Within (graph : Graph) (roots : List Value) (recorder : Recorder) (pending : Pending) : Prop where
  graph_eq : recorder.graph = graph
  distinct : Distinct recorder.loaders
  known : ∀ loader ∈ recorder.loaders, graph.NamesUrl roots loader.url
  reached : ∀ {id slot}, recorder.slot? id = some slot → graph.Reaches roots (.ref id)
  waiting : ∀ entry ∈ pending.waiting, ∃ id, graph.Reaches roots (.ref id) ∧ graph.cell? id = some entry.2

lemma Within.withSlot (within : Within graph roots recorder pending) (head : Head)
    (reached : graph.Reaches roots (.ref id)) (found : graph.cell? id = some cell) :
    Within graph roots (recorder.withSlot id)
      { allocations := pending.allocations ++ [.allocate recorder.nextSlot head]
        waiting := (recorder.nextSlot, cell) :: pending.waiting } := by
  refine { within with
    reached := fun {other slot} held => ?_
    waiting := forall_mem_cons.2 ⟨⟨id,reached,found⟩,within.waiting⟩ }
  rw [slot?_withSlot_eq] at held
  split_ifs at held with same
  · exact same ▸ reached
  · exact within.reached held

def Goes {α : Type} (graph : Graph) (roots : List Value) (waits : α → Pending)
    (run : EStateM.Result Diagnostic Recorder α) : Prop :=
  ∃ result later, run = .ok result later ∧ Within graph roots later (waits result)

lemma Goes.bind {α β : Type} {waits : α → Pending} {next : β → Pending} {x : Recording α}
    {f : α → Recording β} (first : Goes graph roots waits (x recorder))
    (rest : ∀ result later, Within graph roots later (waits result) →
      Goes graph roots next (f result later)) : Goes graph roots next ((x >>= f) recorder) := by
  obtain ⟨result,later,done,within⟩ := first
  change Goes graph roots next (EStateM.bind x f recorder)
  rw [EStateM.bind,done]
  exact rest result later within

section
variable (apart : Digest.TellsApart (graph.NamesUrl roots)) (portable : graph.Portable roots)
include apart

lemma targetOf_goes (within : Within graph roots recorder pending) (known : graph.NamesUrl roots named.url) :
    Goes graph roots (fun _ => pending) (targetOf named recorder) := by
  obtain ⟨more,grown,-,distinct,urls⟩ := loaderOf_spec within.distinct apart within.known known
  refine ⟨_,(recorder.loaderOf named.url).2,rfl,?_⟩
  rw [grown]
  refine { within with distinct, known := forall_mem_append.2 ⟨within.known,fun loader new => ?_⟩ }
  exact urls loader new ▸ known

lemma containerLeaf_goes (within : Within graph roots recorder pending)
    (reached : graph.Reaches roots (.ref id)) (found : graph.cell? id = some cell)
    (portable : cell.isPortable = true) :
    Goes graph roots Prod.snd (containerLeaf id cell pending recorder) := by
  have made : Goes graph roots (fun _ => pending) (headOf cell recorder) := by
    have named {target : ExportName} (names : cell.named? = some target) :=
      targetOf_goes apart within ⟨id,cell,target,reached,found,names,rfl⟩
    match cell, portable with
    | .object (some maker) _, _ | .function _ (some _) _, _ =>
      exact (named rfl).bind fun _ later within => ⟨_,later,rfl,within⟩
    | .array _, _ | .object none _, _ | .lazy _, _ => exact ⟨_,recorder,rfl,within⟩
  obtain ⟨head,middle,done,within'⟩ := made
  cases held : recorder.slot? id with
  | some slot =>
    refine ⟨(.ref slot, pending),recorder,?_,within⟩
    simp only [containerLeaf,bind,EStateM.bind,run_get,held]
    rfl
  | none =>
    refine ⟨(.ref middle.nextSlot, _),middle.withSlot id,?_, within'.withSlot head reached found⟩
    simp only [containerLeaf,bind,EStateM.bind,run_get,held,done]
    rfl

include portable

section
variable (within : Within graph roots recorder pending)
include within

lemma leaf_goes (reached : graph.Reaches roots value) :
    Goes graph roots Prod.snd (Payload.leaf value pending recorder) := by
  cases value with
  | ref id =>
    obtain ⟨cell,found,plain⟩ := portable.cells reached
    have there : recorder.graph.cell? id = some cell := within.graph_eq ▸ found
    rw [leaf_ref,plainLeaf_ref,there]
    match cell, plain with
    | .lazy named, _ =>
      exact (targetOf_goes apart within ⟨id,_,named,reached,found,rfl,rfl⟩).bind
        fun _ later within => ⟨_,later,rfl,within⟩
    | .array _, plain | .object _ _, plain | .function _ _ _, plain =>
      exact containerLeaf_goes apart within reached found plain
  | _ => exact ⟨_,recorder,rfl,within⟩

lemma leaves_goes (reached : ∀ value ∈ values, graph.Reaches roots value) :
    Goes graph roots Prod.snd (Payload.leaves values pending recorder) := by
  induction values generalizing recorder pending with
  | nil => exact ⟨_,recorder,rfl,within⟩
  | cons value rest ih =>
    obtain ⟨here,others⟩ := forall_mem_cons.1 reached
    exact (leaf_goes apart portable within here).bind fun _ _ within =>
      (ih within others).bind fun _ later within => ⟨_,later,rfl,within⟩

lemma fillAll_goes (fuel : Nat) {fills : List Entry} :
    Goes graph roots (fun _ => {}) (fillAll fuel pending fills recorder) := by
  have idle : Within graph roots recorder {} := { within with waiting := forall_mem_nil _ }
  induction fuel generalizing recorder pending fills with
  | zero => exact ⟨_,recorder,rfl,idle⟩
  | succ fuel ih =>
    cases next : pending.waiting with
    | nil =>
      rw [fillAll,next]
      exact ⟨_,recorder,rfl,idle⟩
    | cons entry rest =>
      have waiting := within.waiting
      rw [next] at waiting
      obtain ⟨⟨id,reached,found⟩,others⟩ := forall_mem_cons.1 waiting
      have body : Goes graph roots Prod.snd (bodyOf entry.2 { pending with waiting := rest } recorder) := by
        refine (leaves_goes apart portable { within with waiting := others } fun value listed =>
          .part reached found listed).bind fun _ later within => ?_
        cases entry.2 <;> exact ⟨_,later,rfl,within⟩
      rw [fillAll,next]
      exact body.bind fun _ _ within => ih within { within with waiting := forall_mem_nil _ }

end

lemma recordAll_goes (values : List Value) (within : Within graph roots recorder {})
    (reached : ∀ value ∈ values, graph.Reaches roots value) :
    ∃ later, recorder.recordAll values = (values.map fun _ => .ok (), later) ∧ Within graph roots later {} := by
  induction values generalizing recorder with
  | nil => exact ⟨recorder,rfl,within⟩
  | cons value rest ih =>
    obtain ⟨here,others⟩ := forall_mem_cons.1 reached
    obtain ⟨found,middle,done,next⟩ : Goes graph roots (fun _ => {}) (findAll value recorder) :=
      (leaf_goes apart portable within here).bind fun _ _ within =>
        (fillAll_goes apart portable within _).bind fun _ later within => ⟨_,later,rfl,within⟩
    have first : recorder.record value = (.ok (), middle.withWritten found) := by rw [record_eq,done]
    have within : Within graph roots (middle.withWritten found) {} := { next with }
    obtain ⟨later,doneRest,last⟩ := ih within others
    exact ⟨later,by simp [recordAll,first,doneRest],last⟩

end

/-! ### What has been recorded -/

/-- What is known of a recorder after values that can be written. -/
structure Recorded (graph : Graph) (values : List Value) (recorder : Recorder) : Prop
    extends Within graph values recorder {}, Settled graph values recorder

lemma recordAll_ok (apart : Digest.TellsApart (graph.NamesUrl values)) (portable : graph.Portable values) :
    ∃ later, recordAll { graph } values = (values.map fun _ => .ok (), later) ∧ Recorded graph values later := by
  have start : Within graph values { graph } {} := ⟨rfl,distinct_nil,by simp,by simp [slot?],by simp⟩
  obtain ⟨later,done,within⟩ := recordAll_goes apart portable values start fun _ listed => .root listed
  exact ⟨later,done,within,((settled_start graph).recordAll done).1⟩

lemma Shows.of_describes (portable : graph.Portable roots) (reached : graph.Reaches roots value)
    (taken : ∀ {id slot}, recorder.slot? id = some slot → slot < recorder.nextSlot)
    (describes : recorder.Describes graph value leaf) : recorder.Shows value leaf := by
  refine (describes.stands taken).shown ?_
  rintro id rfl
  obtain ⟨cell,found,-⟩ := portable.cells reached
  exact ⟨⟨cell,found⟩,portable.not_custom reached⟩

lemma Describes.normal (describes : recorder.Describes graph value leaf) :
    recorder.Describes graph value leaf.normal := by
  cases describes with
  | shows leads shown => exact .shows leads shown.normal
  | missing leads none => exact .missing leads none

end Recorder
end Payload
end Resumable
