import Resumable.Number.Written
import Resumable.Text.Quoted

/-! Payloads: state as a script. A payload declares the modules it needs, makes the containers of
the graph as empty slots, fills each, and names the values that were written. Every place for a
value holds a leaf, so a payload does not nest however deep the graph is. -/
namespace Resumable.Payload

structure Target where
  loader : String
  name : String
  deriving DecidableEq, Repr

inductive Leaf where
  | undefined
  | null
  | boolean (value : Bool)
  | number (value : Number)
  | string (value : String)
  | symbol (key : String)
  | date (time : Number)
  | ref (slot : Nat)
  | lazy (target : Target)
  | anchor (path : List Nat)
  deriving DecidableEq, Repr

inductive Head where
  | array
  | object
  | closure (target : Target)
  | member (target : Target)
  deriving DecidableEq, Repr

inductive Body where
  | elements (items : List Leaf)
  | properties (fields : List (String × Leaf))
  | captured (items : List Leaf)
  deriving DecidableEq, Repr

inductive Entry where
  | allocate (slot : Nat) (head : Head)
  | fill (slot : Nat) (body : Body)
  | value (leaf : Leaf)
  deriving DecidableEq, Repr

structure Loader where
  name : String
  url : String
  deriving DecidableEq, Repr

structure Parsed where
  loaders : List (String × String) := []
  entries : List Entry := []
  deriving DecidableEq, Repr

def Parsed.values (parsed : Parsed) : List Leaf :=
  parsed.entries.filterMap fun entry => match entry with
    | .value leaf => some leaf
    | _ => none

/-- A payload as it is written: what is needed first, then one expression for each value. -/
structure Written where
  loaders : List Loader := []
  definitions : List Entry := []
  expressions : List Leaf := []
  deriving DecidableEq, Repr

def list (texts : List String) : String := String.intercalate ", " texts

def slotText (slot : Nat) : String := "refs[" ++ toString slot ++ "]"

def Target.text (target : Target) : String :=
  "(" ++ target.loader ++ ", " ++ Text.jsonQuoted target.name ++ ")"

def Leaf.text : Leaf → String
  | undefined => "undefined"
  | null => "null"
  | boolean value => if value then "true" else "false"
  | number value => value.scriptText
  | string value => Text.jsonQuoted value
  | symbol key => "Symbol.for(" ++ Text.jsonQuoted key ++ ")"
  | date time => "new Date(" ++ time.scriptText ++ ")"
  | ref slot => slotText slot
  | lazy target => "__lazyRef" ++ target.text
  | anchor path => "__anchor([" ++ list (path.map toString) ++ "])"

def Head.text : Head → String
  | array => "[]"
  | object => "\x7b\x7d"
  | closure target => "__closure" ++ target.text
  | member target => "__instance" ++ target.text

/-- A key of an object. Written plainly, `__proto__` would not be one. -/
def keyText (key : String) : String :=
  if key == "__proto__" then "[" ++ Text.jsonQuoted key ++ "]" else Text.jsonQuoted key

def Body.text : Body → String
  | elements items => "[" ++ list (items.map Leaf.text) ++ "]"
  | properties fields =>
    "\x7b" ++ list (fields.map fun (key, leaf) => keyText key ++ ": " ++ leaf.text) ++ "\x7d"
  | captured items => "\x7b\"capturedArgs\": [" ++ list (items.map Leaf.text) ++ "]\x7d"

def Entry.text : Entry → String
  | allocate slot head => slotText slot ++ " = " ++ head.text
  | fill slot body => "Object.assign(" ++ slotText slot ++ ", " ++ body.text ++ ")"
  | value leaf => leaf.text

def Loader.text (loader : Loader) : String :=
  "function " ++ loader.name ++ "()\x7b return import(" ++ Text.jsonQuoted loader.url ++ ") \x7d"

def Written.entries (written : Written) : List Entry :=
  written.definitions ++ written.expressions.map Entry.value

def Written.text (written : Written) : String :=
  String.join (written.loaders.map fun loader => loader.text ++ "\n") ++
    String.join (written.entries.map fun entry => entry.text ++ ";\n")

end Resumable.Payload
