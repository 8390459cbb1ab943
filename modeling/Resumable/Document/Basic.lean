/-! Documents. A node is known by its number; a node's children come after it, since nodes are only
ever added under one that is there. An anchor is the path of child positions from the root. -/
namespace Resumable

abbrev NodeId := Nat

inductive NodeKind where
  | document
  | doctype
  | element (name : String)
  | text
  | comment
  deriving DecidableEq, Repr

structure DocumentNode where
  kind : NodeKind
  parent : Option NodeId
  children : List NodeId := []
  deriving DecidableEq, Repr

structure Document where
  nodes : List DocumentNode
  deriving DecidableEq, Repr

namespace Document

def root : NodeId := 0

def empty : Document := ⟨[{ kind := .document, parent := none }]⟩

def node? (document : Document) (id : NodeId) : Option DocumentNode := document.nodes[id]?

def children (document : Document) (id : NodeId) : List NodeId :=
  ((document.node? id).map DocumentNode.children).getD []

def append (document : Document) (parent : NodeId) (kind : NodeKind) : NodeId × Document :=
  let id := document.nodes.length
  let nodes := document.nodes.modify parent fun node =>
    { node with children := node.children ++ [id] }
  (id, ⟨nodes ++ [{ kind, parent := some parent }]⟩)

def follow? (document : Document) : NodeId → List Nat → Option NodeId
  | id, [] => some id
  | id, index :: path =>
    match (document.children id)[index]? with
    | some child => document.follow? child path
    | none => none

def resolve? (document : Document) (path : List Nat) : Option NodeId := document.follow? root path

/-- The path to a node, with `path` to be followed after it. A parent has a smaller number than its
children, so as many steps as the number of the node lead to the root. -/
def climb (document : Document) : Nat → NodeId → List Nat → List Nat
  | 0, _, path => path
  | steps + 1, id, path =>
    match (document.node? id).bind DocumentNode.parent with
    | some parent =>
      match (document.children parent).idxOf? id with
      | some index => document.climb steps parent (index :: path)
      | none => path
    | none => path

def pathTo (document : Document) (id : NodeId) : List Nat := document.climb (id + 1) id []

def describeKind : NodeKind → String
  | .document => "#document"
  | .doctype => "#node"
  | .element name => "<" ++ name ++ ">"
  | .text => "#text"
  | .comment => "#comment"

def describe (document : Document) (id : NodeId) : String :=
  ((document.node? id).map fun node => describeKind node.kind).getD ""

end Document

end Resumable
