import Resumable.Graph.Basic
import Resumable.Modules.Loading
import Resumable.Payload.Reading

/-! Live values from payloads. First the whole graph is made, then the modules that it needs are
loaded and linked. What goes wrong is reported and the rest is kept. -/
namespace Resumable.Revival

open Payload (Leaf Head Body Entry Parsed Target)

structure Link where
  target : ExportName
  function : Option CellId
  deriving DecidableEq, Repr

structure Build where
  graph : Graph
  loaders : List (String × String)
  slots : List (Nat × Value) := []
  links : List Link := []
  errors : List Diagnostic := []

namespace Build

def report (build : Build) (error : Diagnostic) : Build :=
  { build with errors := build.errors ++ [error] }

def malformed (build : Build) (message : String) : Build :=
  build.report { invariant := .malformedPayload, message }

def slot? (build : Build) (slot : Nat) : Option Value :=
  (build.slots.find? fun entry => entry.1 == slot).map (·.2)

def slotText (slot : Nat) : String := "refs[" ++ toString slot ++ "]"

def exportOf (build : Build) (target : Target) : Option ExportName × Build :=
  match Keyed.get? target.loader build.loaders with
  | some url => (some { url, name := target.name }, build)
  | none => (none, build.malformed ("Unknown loader '" ++ target.loader ++ "'"))

def add (build : Build) (cell : Cell) : CellId × Build :=
  let (id, graph) := build.graph.add cell
  (id, { build with graph })

def pathText (path : List Nat) : String := "[" ++ String.intercalate ", " (path.map toString) ++ "]"

def noAnchor (document : Document) (path : List Nat) : Diagnostic :=
  { invariant := .anchorNotFound
    message := "No node at path " ++ pathText path ++ " under the hydration root"
    context := some (document.describe Document.root) }

def valueOf (build : Build) : Leaf → Value × Build
  | .undefined => (.undefined, build)
  | .null => (.null, build)
  | .boolean value => (.boolean value, build)
  | .number value => (.number value, build)
  | .string value => (.string value, build)
  | .symbol key => (.symbol key, build)
  | .date time => (.date time, build)
  | .ref slot =>
    match build.slot? slot with
    | some value => (value, build)
    | none => (.undefined, build.malformed (slotText slot ++ " is used before it is allocated"))
  | .lazy target =>
    match build.exportOf target with
    | (some found, build) =>
      let (id, build) := build.add (.lazy found)
      (.ref id, build)
    | (none, build) => (.undefined, build)
  | .anchor path =>
    match build.graph.document.resolve? path with
    | some id => (.node id, build)
    | none => (.undefined, build.report (noAnchor build.graph.document path))

def valuesOf (build : Build) : List Leaf → List Value × Build
  | [] => ([], build)
  | leaf :: rest =>
    let (value, build) := build.valueOf leaf
    let (values, build) := build.valuesOf rest
    (value :: values, build)

def make (build : Build) : Head → Value × Build
  | .array =>
    let (id, build) := build.add (.array [])
    (.ref id, build)
  | .object =>
    let (id, build) := build.add (.object none [])
    (.ref id, build)
  | .member target =>
    match build.exportOf target with
    | (some found, build) =>
      let (id, build) := build.add (.object (some found) [])
      (.ref id, { build with links := build.links ++ [⟨found,none⟩] })
    | (none, build) => (.undefined, build)
  | .closure target =>
    match build.exportOf target with
    | (some found, build) =>
      let (id, build) := build.add (.function found.name (some ⟨found,[]⟩) none)
      (.ref id, { build with links := build.links ++ [⟨found,some id⟩] })
    | (none, build) => (.undefined, build)

def setCell (build : Build) (id : CellId) (cell : Cell) : Build :=
  { build with graph := build.graph.set id cell }

def setProperties (properties : List (String × Value)) (new : List (String × Value)) :
    List (String × Value) :=
  new.foldl (fun properties (key, value) => Keyed.insert key value properties) properties

def mismatch (build : Build) (slot : Nat) : Build :=
  build.malformed (slotText slot ++ " is filled with a body that does not match its head")

def fillCell (build : Build) (slot : Nat) (id : CellId) (body : Body) : Build :=
  match build.graph.cell? id, body with
  | some (.array items), .elements leaves =>
    let (values, build) := build.valuesOf leaves
    build.setCell id (.array (items ++ values))
  | some (.object maker properties), .properties fields =>
    let (values, build) := build.valuesOf (fields.map (·.2))
    build.setCell id (.object maker (setProperties properties ((fields.map (·.1)).zip values)))
  | some (.function name (some origin) module), .captured leaves =>
    let (values, build) := build.valuesOf leaves
    let origin := { origin with captured := origin.captured ++ values }
    build.setCell id (.function name (some origin) module)
  | _, _ => build.mismatch slot

def fill (build : Build) (slot : Nat) (body : Body) : Build :=
  match build.slot? slot with
  | none => build.malformed (slotText slot ++ " is filled before it is allocated")
  | some (.ref id) => build.fillCell slot id body
  -- What could not be made has been reported.
  | some .undefined => build
  | some _ => build.mismatch slot

def allocate (build : Build) (slot : Nat) (head : Head) : Build :=
  match build.slot? slot with
  | some _ => build.malformed (slotText slot ++ " is allocated twice")
  | none =>
    let (value, build) := build.make head
    { build with slots := build.slots ++ [(slot, value)] }

def run (build : Build) : List Entry → List Value × Build
  | [] => ([], build)
  | .allocate slot head :: rest => (build.allocate slot head).run rest
  | .fill slot body :: rest => (build.fill slot body).run rest
  | .value leaf :: rest =>
    let (value, build) := build.valueOf leaf
    let (values, build) := build.run rest
    (value :: values, build)

end Build

structure Revived where
  graph : Graph
  values : List Value
  errors : List Diagnostic
  modules : ModuleTable

def linkFunction (graph : Graph) (record : ModuleEntry) : Option CellId → Graph
  | none => graph
  | some id =>
    match graph.cell? id with
    | some (.function name origin _) => graph.set id (.function name origin (some record))
    | _ => graph

def link (results : List (String × LoadOutcome)) (graph : Graph) : List Link → Graph × List Diagnostic
  | [] => (graph, [])
  | link :: rest =>
    match Keyed.get? link.target.url results with
    | some (.ok record) =>
      if record.offers link.target.name then
        Revival.link results (linkFunction graph record link.function) rest
      else
        let (graph, errors) := Revival.link results graph rest
        (graph, ModuleTable.notExported link.target :: errors)
    | _ => Revival.link results graph rest

def neededUrls (links : List Link) : List String := (links.map fun link => link.target.url).eraseDups

def failures (results : List LoadOutcome) : List Diagnostic :=
  results.filterMap fun result => match result with
    | .error failure => some failure
    | .ok _ => none

def ofParsed (parsed : Parsed) (document : Document) (modules : ModuleTable) : Revived :=
  let start : Build := { graph := { document }, loaders := parsed.loaders }
  let (values, build) := start.run parsed.entries
  let urls := neededUrls build.links
  let (results, modules) := modules.loadAll urls
  let (graph, missing) := link (urls.zip results) build.graph build.links
  { graph, values, errors := build.errors ++ failures results ++ missing, modules }

def ofText (text : String) (document : Document) (modules : ModuleTable) : Revived :=
  match Payload.ofText text with
  | .error failure => { graph := { document }, values := [], errors := [failure], modules }
  | .ok parsed => ofParsed parsed document modules

namespace Revived

def first (revived : Revived) : Value := revived.values.head?.getD .undefined

def gathered (revived : Revived) : Value × Graph :=
  let (id, graph) := revived.graph.add (.array revived.values)
  (.ref id, graph)

end Revived

end Resumable.Revival
