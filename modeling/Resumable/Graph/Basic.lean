import Resumable.Document.Basic
import Resumable.Keyed
import Resumable.Modules.Basic
import Resumable.Number.Written

/-! Live values. A value that can be shared or lead back to itself is a cell, known by its number;
two references are to the same thing exactly if their numbers are equal. -/
namespace Resumable

abbrev CellId := Nat

inductive Value where
  | undefined
  | null
  | boolean (value : Bool)
  | number (value : Number)
  | string (value : String)
  | symbol (key : String)
  | date (time : Number)
  | node (id : NodeId)
  | ref (id : CellId)
  deriving DecidableEq, Repr, Inhabited

structure Origin where
  factory : ExportName
  captured : List Value
  deriving DecidableEq, Repr

inductive Cell where
  | array (items : List Value)
  | object (maker : Option ExportName) (properties : List (String × Value))
  | function (name : String) (origin : Option Origin) (module : Option ModuleEntry)
  | lazy (target : ExportName)
  /-- An object that puts another value in its place; with `fresh`, a new copy of that value, one
  level deep, each time it is asked. Only arrays and objects are copied: new copies of closures are not modelled. -/
  | custom (target : Value) (fresh : Bool)
  deriving DecidableEq, Repr, Inhabited

structure Graph where
  cells : List Cell := []
  document : Document := .empty
  deriving DecidableEq, Repr

namespace Graph

def cell? (graph : Graph) (id : CellId) : Option Cell := graph.cells[id]?

def add (graph : Graph) (cell : Cell) : CellId × Graph :=
  (graph.cells.length, { graph with cells := graph.cells ++ [cell] })

def set (graph : Graph) (id : CellId) (cell : Cell) : Graph :=
  { graph with cells := graph.cells.set id cell }

def cellOf? (graph : Graph) : Value → Option Cell
  | .ref id => graph.cell? id
  | _ => none

end Graph

namespace Cell

def parts : Cell → List Value
  | array items => items
  | object _ properties => properties.map (·.2)
  | function _ origin _ => (origin.map Origin.captured).getD []
  | lazy _ => []
  | custom _ _ => []

def isContainer : Cell → Bool
  | array _ | object _ _ | function _ _ _ => true
  | lazy _ | custom _ _ => false

end Cell

namespace Value

def same : Value → Value → Bool
  | number x, number y => x.same y
  | date x, date y => x.same y
  | a, b => a == b

end Value

namespace Graph

def kindName (graph : Graph) : Value → String
  | .undefined => "undefined"
  | .null => "null"
  | .boolean _ => "boolean"
  | .number _ => "number"
  | .string _ => "string"
  | .symbol _ => "symbol"
  | .date _ => "date"
  | .node _ => "node"
  | .ref id =>
    match graph.cell? id with
    | some (.array _) => "array"
    | some (.object _ _) => "object"
    | some (.function _ _ _) => "function"
    | some (.lazy _) => "lazy"
    | some (.custom _ _) => "custom"
    | none => "undefined"

def cellShown : Cell → String
  | .array items => "Array(len = " ++ toString items.length ++ ")"
  | .object maker properties =>
    let keys := "\x7b " ++ String.intercalate ", " (properties.map (·.1)) ++ " \x7d"
    match maker with
    | some made => made.name ++ " " ++ keys
    | none => keys
  | .function name origin _ =>
    match origin with
    | some origin => "[Function " ++ name ++ " from " ++ origin.factory.url ++ "]"
    | none => "[Function " ++ name ++ "]"
  | .lazy target => "Lazy(" ++ target.url ++ "#" ++ target.name ++ ")"
  | .custom _ _ => "[Custom]"

def shown (graph : Graph) : Value → String
  | .undefined => "undefined"
  | .null => "null"
  | .boolean value => if value then "true" else "false"
  | .number value => value.shown
  | .string value => Text.shown value
  | .symbol key => "Symbol.for(" ++ Text.shown key ++ ")"
  | .date time => "Date(" ++ time.shown ++ ")"
  | .node id => "Node(" ++ graph.document.describe id ++ ")"
  | .ref id => ((graph.cell? id).map cellShown).getD "undefined"

def property? (graph : Graph) (value : Value) (key : String) : Option Value :=
  match graph.cellOf? value with
  | some (.object _ properties) => Keyed.get? key properties
  | _ => none

def item? (graph : Graph) (value : Value) (index : Nat) : Option Value :=
  match graph.cellOf? value with
  | some (.array items) => items[index]?
  | _ => none

def newContainers (graph : Graph) (found : List CellId) : List Value → List CellId
  | [] => []
  | .ref id :: rest =>
    if (graph.cell? id).any Cell.isContainer && !found.contains id then
      id :: newContainers graph (id :: found) rest
    else newContainers graph found rest
  | _ :: rest => newContainers graph found rest

def breadthFirst (graph : Graph) : Nat → List CellId → List CellId → List CellId
  | 0, found, _ => found
  | _, found, [] => found
  | fuel + 1, found, id :: waiting =>
    let parts := ((graph.cell? id).map Cell.parts).getD []
    let new := graph.newContainers found parts
    graph.breadthFirst fuel (found ++ new) (waiting ++ new)

/-- The containers reached from some values, in the order in which they are first mentioned when
one goes through the graph level by level. -/
def containers (graph : Graph) (roots : List Value) : List CellId :=
  let first := graph.newContainers [] roots
  graph.breadthFirst (graph.cells.length + 1) first first

end Graph

end Resumable
