import Resumable.Proofs.Loaders

/-! What a recording leaves behind: leaves that show values, and heads that show containers. -/
namespace Resumable

variable {values : List Value} {body : Body}

inductive Graph.Reaches (graph : Graph) (roots : List Value) : Value → Prop
  | root {value : Value} (listed : value ∈ roots) : Reaches graph roots value
  | part {id : CellId} {cell : Cell} {value : Value} (outer : Reaches graph roots (.ref id))
    (found : graph.cell? id = some cell) (listed : value ∈ cell.parts) : Reaches graph roots value

/-- Whether a cell can be written: it is no custom object, its making is known if it is a function,
and no two of its properties have one key. -/
def Cell.isPortable : Cell → Bool
  | .array _ | .lazy _ => true
  | .object _ properties => decide (properties.map (·.1)).Nodup
  | .function _ origin _ => origin.isSome
  | .custom _ _ => false

def Cell.maker? : Cell → Option ExportName
  | .object maker _ => maker
  | .function _ origin _ => origin.map Origin.factory
  | _ => none

def Cell.named? : Cell → Option ExportName
  | .lazy target => some target
  | cell => cell.maker?

/-- Every cell that is reached can be written, and every node that is reached is there. -/
structure Graph.Portable (graph : Graph) (roots : List Value) : Prop where
  cells : ∀ {id}, graph.Reaches roots (.ref id) → ∃ cell, graph.cell? id = some cell ∧ cell.isPortable = true
  nodes : ∀ {id}, graph.Reaches roots (.node id) → id < graph.document.nodes.length

def Graph.NamesUrl (graph : Graph) (roots : List Value) (url : String) : Prop :=
  ∃ id cell target, graph.Reaches roots (.ref id) ∧ graph.cell? id = some cell ∧
    cell.named? = some target ∧ target.url = url

namespace Payload

def Body.leaves : Body → List Leaf
  | elements items | captured items => items
  | properties fields => fields.map (·.2)

lemma run_get (recorder : Recorder) : (get : Recording Recorder) recorder = .ok recorder recorder := rfl

namespace Recorder

/-! ### What stands for what -/

def Offers (recorder : Recorder) (target : Target) (named : ExportName) : Prop :=
  ⟨target.loader,named.url⟩ ∈ recorder.loaders ∧ target.name = named.name

inductive Shows (recorder : Recorder) : Value → Leaf → Prop
  | undefined : Shows recorder .undefined .undefined
  | null : Shows recorder .null .null
  | boolean (value : Bool) : Shows recorder (.boolean value) (.boolean value)
  | number {x y : Number} (same : x.same y = true) : Shows recorder (.number x) (.number y)
  | string (value : String) : Shows recorder (.string value) (.string value)
  | symbol (key : String) : Shows recorder (.symbol key) (.symbol key)
  | date {x y : Number} (same : x.same y = true) : Shows recorder (.date x) (.date y)
  | node (id : NodeId) : Shows recorder (.node id) (.anchor (recorder.graph.document.pathTo id))
  | lazy {id : CellId} {target : Target} {named : ExportName}
    (found : recorder.graph.cell? id = some (.lazy named)) (offered : recorder.Offers target named) :
    Shows recorder (.ref id) (.lazy target)
  | container {id : CellId} {slot : Nat} (held : recorder.slot? id = some slot) : Shows recorder (.ref id) (.ref slot)

inductive HeadOf (recorder : Recorder) : Cell → Head → Prop
  | array (items : List Value) : HeadOf recorder (.array items) .array
  | object (properties : List (String × Value)) : HeadOf recorder (.object none properties) .object
  | member {target : Target} {maker : ExportName} (properties : List (String × Value))
    (offered : recorder.Offers target maker) :
    HeadOf recorder (.object (some maker) properties) (.member target)
  | closure {target : Target} {origin : Origin} (name : String) (module : Option ModuleEntry)
    (offered : recorder.Offers target origin.factory) :
    HeadOf recorder (.function name (some origin) module) (.closure target)

variable {recorder later : Recorder} {value : Value} {cell : Cell}

/-! ### Slots -/

variable {id : CellId} {slot : Nat}

def withSlot (recorder : Recorder) (id : CellId) : Recorder :=
  { recorder with
    nextSlot := recorder.nextSlot + 1, slots := (id, recorder.nextSlot) :: recorder.slots }

def withLoaders (recorder : Recorder) (more : List Loader) : Recorder :=
  { recorder with loaders := recorder.loaders ++ more }

lemma slot?_withSlot (recorder : Recorder) (id : CellId) :
    (recorder.withSlot id).slot? id = some recorder.nextSlot := by
  simp [withSlot,slot?]

def recordAll (recorder : Recorder) : List Value → List (Except Diagnostic Unit) × Recorder
  | [] => ([], recorder)
  | value :: rest =>
    let (outcome, later) := recorder.record value
    let (outcomes, last) := later.recordAll rest
    (outcome :: outcomes, last)

end Recorder

/-! ### One number for all that are none -/

end Payload

def Number.normal (x : Number) : Number := if x.isNaN then .nan else x

lemma Number.same_normal {x y : Number} (same : x.same y = true) : x.same y.normal = true := by
  unfold Number.normal
  split
  · rename_i none
    have also : x.isNaN = true := by
      simp only [Number.same,Bool.or_eq_true,Bool.and_eq_true,beq_iff_eq] at same
      rcases same with both | bits
      · exact both.1
      · simpa [Number.isNaN,Number.biased,Number.fraction,bits] using none
    simp only [Number.same,also,Bool.true_and,Bool.or_eq_true]
    exact .inl (by decide)
  · exact same

namespace Payload

def Leaf.normal : Leaf → Leaf
  | number value => number value.normal
  | date time => date time.normal
  | leaf => leaf

def Body.normal : Body → Body
  | elements items => elements (items.map Leaf.normal)
  | properties fields => properties (fields.map fun field => (field.1, field.2.normal))
  | captured items => captured (items.map Leaf.normal)

def Entry.normal : Entry → Entry
  | allocate slot head => allocate slot head
  | fill slot body => fill slot body.normal
  | value leaf => value leaf.normal

namespace Recorder

variable {recorder : Recorder}

lemma Shows.normal {value : Value} {leaf : Leaf} (shown : recorder.Shows value leaf) :
    recorder.Shows value leaf.normal := by
  cases shown with
  | number same => exact .number (Number.same_normal same)
  | date same => exact .date (Number.same_normal same)
  | node id => exact .node id
  | lazy found offered => exact .lazy found offered
  | container held => exact .container held
  | _ => constructor

lemma allShown_normal {leaves : List Leaf} (shown : values.Forall₂ recorder.Shows leaves) :
    values.Forall₂ recorder.Shows (leaves.map Leaf.normal) :=
  List.forall₂_map_right_iff.2 (shown.imp fun _ _ => Shows.normal)

lemma leaves_normal (body : Body) : body.normal.leaves = body.leaves.map Leaf.normal := by
  cases body <;> simp [Body.normal,Body.leaves]

end Recorder
end Payload

end Resumable
