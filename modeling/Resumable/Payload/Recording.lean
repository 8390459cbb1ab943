import Resumable.Digest
import Resumable.Graph.Basic
import Resumable.Payload.Basic

/-! Payloads from live values. Each container gets a slot when it is first met, and is its slot from
then on, so that sharing is kept and cycles come to an end. -/
namespace Resumable.Payload

structure Recorder where
  graph : Graph
  slots : List (CellId × Nat) := []
  /-- Slots fit 32 bits as long as the graph has at most 2 ^ 32 cells. -/
  nextSlot : Nat := 0
  loaders : List Loader := []
  definitions : List Entry := []
  expressions : List Leaf := []

/-- A recording may fail; what it took by then stays taken. -/
abbrev Recording := EStateM Diagnostic Recorder

namespace Recorder

def slot? (recorder : Recorder) (id : CellId) : Option Nat :=
  (recorder.slots.find? fun entry => entry.1 == id).map (·.2)

/-- The names that a loader can have: more and more of the digest of its URL. -/
def loaderNames (url : String) : List String :=
  let digest := (Digest.hexOfText url).toList
  (List.range 15).map fun n => "load_" ++ String.ofList (digest.take (8 + 4 * n))

def freeName (taken : List String) : List String → String
  | [] => ""
  | [name] => name
  | name :: names => if taken.contains name then freeName taken names else name

def loaderOf (recorder : Recorder) (url : String) : String × Recorder :=
  match recorder.loaders.find? fun loader => loader.url == url with
  | some loader => (loader.name, recorder)
  | none =>
    let name := freeName (recorder.loaders.map Loader.name) (loaderNames url)
    (name, { recorder with loaders := recorder.loaders ++ [⟨name,url⟩] })

def written (recorder : Recorder) : Written :=
  { loaders := recorder.loaders
    definitions := recorder.definitions
    expressions := recorder.expressions }

end Recorder

def targetOf (target : ExportName) : Recording Target := do
  let (loader, recorder) := (← get).loaderOf target.url
  set recorder
  return { loader, name := target.name }

def noOrigin (name : String) (shown : String) : Diagnostic :=
  { invariant := .unserializable
    message := "Function '" ++ name ++ "' has no origin descriptor and cannot be hibernated."
    context := some shown
    hints := ["Only closures emitted by the compiler carry `$origin`."] }

def endlessHook (shown : String) : Diagnostic :=
  { invariant := .unserializable
    message := "Custom serialization hook never produces a plain value"
    context := some shown
    hints := ["A hook must return a value other than itself."] }

def headOf (cell : Cell) : Recording Head :=
  match cell with
  | .array _ => return .array
  | .object (some maker) _ => return .member (← targetOf maker)
  | .function _ (some origin) _ => return .closure (← targetOf origin.factory)
  | .function name none _ => throw (noOrigin name (Graph.cellShown cell))
  | _ => return .object

def replacement (target : Value) (fresh : Bool) : Recording Value := do
  let recorder ← get
  match fresh, recorder.graph.cellOf? target with
  | true, some (.array items) =>
    let (id, graph) := recorder.graph.add (.array items)
    set { recorder with graph }
    return .ref id
  | true, some (.object maker properties) =>
    let (id, graph) := recorder.graph.add (.object maker properties)
    set { recorder with graph }
    return .ref id
  | _, _ => return target

/-- Follows custom objects to a value that is none, with those that were passed. Each may be passed
once. -/
def expand (start : Value) : Nat → List CellId → Value → Recording (Value × List CellId)
  | 0, _, _ => throw (endlessHook "[Custom]")
  | fuel + 1, passed, value => do
    match value, (← get).graph.cellOf? value with
    | .ref id, some (.custom target fresh) =>
      if passed.contains id then throw (endlessHook ((← get).graph.shown start))
      else expand start fuel (passed ++ [id]) (← replacement target fresh)
    | _, _ => return (value, passed)

structure Pending where
  allocations : List Entry := []
  waiting : List (Nat × Cell) := []

def containerLeaf (id : CellId) (cell : Cell) (pending : Pending) : Recording (Leaf × Pending) := do
  match (← get).slot? id with
  | some slot => return (.ref slot, pending)
  | none =>
    let head ← headOf cell
    let slot := (← get).nextSlot
    modify fun recorder =>
      { recorder with nextSlot := slot + 1, slots := (id, slot) :: recorder.slots }
    return (.ref slot,
      { allocations := pending.allocations ++ [.allocate slot head]
        waiting := (slot, cell) :: pending.waiting })

def plainLeaf (value : Value) (pending : Pending) : Recording (Leaf × Pending) := do
  match value with
  | .undefined => return (.undefined, pending)
  | .null => return (.null, pending)
  | .boolean value => return (.boolean value, pending)
  | .number value => return (.number value, pending)
  | .string value => return (.string value, pending)
  | .symbol key => return (.symbol key, pending)
  | .date time => return (.date time, pending)
  | .node id => return (.anchor ((← get).graph.document.pathTo id), pending)
  | .ref id =>
    match (← get).graph.cell? id with
    | some (.lazy target) => return (.lazy (← targetOf target), pending)
    | some cell => if cell.isContainer then containerLeaf id cell pending else
      return (.undefined, pending)
    | none => return (.undefined, pending)

/-- Custom objects that stand for a container get its slot, and with it its identity. -/
def adopt (passed : List CellId) (value : Value) : Recording Unit :=
  modify fun recorder =>
    match value with
    | .ref id =>
      match recorder.slot? id with
      | some slot => { recorder with slots := passed.map (·, slot) ++ recorder.slots }
      | none => recorder
    | _ => recorder

def leaf (value : Value) (pending : Pending) : Recording (Leaf × Pending) := do
  let recorder ← get
  match value, recorder.graph.cellOf? value with
  | .ref id, some (.custom _ _) =>
    match recorder.slot? id with
    | some slot => return (.ref slot, pending)
    | none =>
      let (plain, passed) ← expand value (recorder.graph.cells.length + 2) [] value
      let found ← plainLeaf plain pending
      adopt passed plain
      return found
  | _, _ => plainLeaf value pending

def leaves : List Value → Pending → Recording (List Leaf × Pending)
  | [], pending => return ([], pending)
  | value :: rest, pending => do
    let (first, pending) ← leaf value pending
    let (others, pending) ← leaves rest pending
    return (first :: others, pending)

def bodyOf (cell : Cell) (pending : Pending) : Recording (Body × Pending) := do
  let (found, pending) ← leaves cell.parts pending
  match cell with
  | .array _ => return (.elements found, pending)
  | .function _ _ _ => return (.captured found, pending)
  | .object _ properties => return (.properties ((properties.map (·.1)).zip found), pending)
  | _ => return (.properties [], pending)

def fillAll : Nat → Pending → List Entry → Recording (List Entry × List Entry)
  | 0, pending, fills => return (pending.allocations, fills)
  | fuel + 1, pending, fills =>
    match pending.waiting with
    | [] => return (pending.allocations, fills)
    | (slot, cell) :: waiting => do
      let (body, pending) ← bodyOf cell { pending with waiting }
      fillAll fuel pending (fills ++ [.fill slot body])

/-- Records one value. Each container is filled once, and each custom object makes at most one more
of them, so the cells bound the work. -/
def record (value : Value) : Recording Unit := do
  let cells := (← get).graph.cells.length
  let (root, pending) ← leaf value {}
  let (allocations, fills) ← fillAll (cells + 2) pending []
  modify fun recorder =>
    { recorder with
      definitions := recorder.definitions ++ allocations ++ fills
      expressions := recorder.expressions ++ [root] }

def Recorder.record (recorder : Recorder) (value : Value) : Except Diagnostic Unit × Recorder :=
  match (Payload.record value).run recorder with
  | .ok _ recorder => (.ok (), recorder)
  | .error failure recorder => (.error failure, recorder)

def ofValue (graph : Graph) (value : Value) : Except Diagnostic Written :=
  match (({ graph } : Recorder).record value) with
  | (.ok _, recorder) => .ok recorder.written
  | (.error failure, _) => .error failure

end Resumable.Payload
