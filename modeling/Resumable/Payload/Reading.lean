import Resumable.Diagnostic
import Resumable.Keyed
import Resumable.Payload.Basic
import Resumable.Script.Grammar

/-! Payloads from text. The text is read as a script and never run; only the forms that are written
are accepted. -/
namespace Resumable.Payload

open Script (Expr Stmt Func Span)

structure Source where
  text : List Char
  loaders : List (String × String) := []

namespace Source

def malformed {α : Type} (source : Source) (message : String) (span : Span) : Except Diagnostic α :=
  .error
    { invariant := .malformedPayload
      message
      context := (Text.slice? source.text span.start span.stop).map fun cut => String.ofList (cut.take 80) }

def loader (source : Source) (literal : Func) : Except Diagnostic (String × String) :=
  match literal.head.name, literal.body with
  | some id, [.returns [.node .load _ (.string url _ :: _)] _] => .ok (id.name, url)
  | _, _ => source.malformed "Invalid loader declaration" literal.head.span

def slot (source : Source) (span : Span) : List Expr → Except Diagnostic Nat
  | [.name table,.number index _] =>
    match index.toNat? with
    | some n =>
      if table.name == "refs" && n < UInt32.size then .ok n
      else source.malformed "Invalid reference slot" span
    | none => source.malformed "Invalid reference slot" span
  | _ => source.malformed "Invalid reference slot" span

def argument (source : Source) : Expr → Except Diagnostic Expr
  | .node .spread span _ => source.malformed "Spread arguments are not allowed" span
  | value => .ok value

def target (source : Source) (span : Span) : List Expr → Except Diagnostic Target
  | [first,second] => do
    match ← source.argument first, ← source.argument second with
    | .name id, .string name _ =>
      if (Keyed.get? id.name source.loaders).isSome then .ok { loader := id.name, name }
      else source.malformed "Reference to an undeclared loader" id.span
    | _, _ => source.malformed "Expected a loader and an export name" span
  | _ => source.malformed "Expected a loader and an export name" span

/-- A position of an anchor; what is too large for a position is as good as the largest. -/
def position (source : Source) (element : Expr) : Except Diagnostic Nat :=
  match element with
  | .number value span =>
    match value.toNat? with
    | some n => .ok (min n (UInt64.size - 1))
    | none => source.malformed "Invalid anchor index" span
  | other => source.malformed "Invalid anchor index" other.span

def anchor (source : Source) (span : Span) : List Expr → Except Diagnostic Leaf
  | [given] => do
    match ← source.argument given with
    | .node .array _ elements => return .anchor (← elements.mapM source.position)
    | other => source.malformed "Anchor expects an index path" other.span
  | _ => source.malformed "Anchor expects one argument" span

def symbol (source : Source) (span : Span) : List Expr → Except Diagnostic Leaf
  | [given] => do
    match ← source.argument given with
    | .string key _ => return .symbol key
    | other => source.malformed "Symbol key must be a string" other.span
  | _ => source.malformed "Symbol.for expects one argument" span

def call (source : Source) (span : Span) (callee : Expr) (given : List Expr) : Except Diagnostic Leaf :=
  match callee with
  | .name id =>
    if id.name == "__lazyRef" then (source.target span given).map Leaf.lazy
    else if id.name == "__anchor" then source.anchor span given
    else source.malformed "Unexpected call" span
  | .node (.member property) _ [.name object] =>
    if object.name == "Symbol" && property.name == "for" then source.symbol span given
    else source.malformed "Unexpected call" span
  | _ => source.malformed "Unexpected call" span

def word (source : Source) (id : Script.Ident) : Except Diagnostic Leaf :=
  match id.name with
  | "undefined" => .ok .undefined
  | "NaN" => .ok (.number .nan)
  | "Infinity" => .ok (.number (.infinity false))
  | _ => source.malformed "Unexpected identifier" id.span

def negation (source : Source) (span : Span) (operand : Expr) : Except Diagnostic Leaf :=
  match operand.ungrouped with
  | .number value _ => .ok (.number value.neg)
  | .name id =>
    if id.name == "Infinity" then .ok (.number (.infinity true))
    else source.malformed "Negation of a non-number" span
  | _ => source.malformed "Negation of a non-number" span

def simpleLeaf (source : Source) (value : Expr) : Except Diagnostic Leaf :=
  match value with
  | .number value _ => .ok (.number value)
  | .string value _ => .ok (.string value)
  | .boolean value _ => .ok (.boolean value)
  | .null _ => .ok .null
  | .name id => source.word id
  | .node (.unary "-") span [operand] => source.negation span operand
  | .node .index span parts => (source.slot span parts).map Leaf.ref
  | .node .call span (callee :: given) => source.call span callee given
  | other => source.malformed "Unexpected expression" other.span

/-- A leaf. The argument of a date may be anything that is a number when it is read. -/
def leaf (source : Source) : Nat → Expr → Except Diagnostic Leaf
  | 0, value => source.malformed "Unexpected expression" value.span
  | fuel + 1, value =>
    match value.ungrouped with
    | .node .construct span [.name id,given] =>
      if id.name == "Date" then do
        match ← source.leaf fuel (← source.argument given) with
        | .number time => return .date time
        | _ => source.malformed "Date expects a number" span
      else source.malformed "Unexpected constructor call" span
    | .node .construct span _ => source.malformed "Unexpected constructor call" span
    | value => source.simpleLeaf value

def leafOf (source : Source) (value : Expr) : Except Diagnostic Leaf :=
  source.leaf (source.text.length + 1) value

def element (source : Source) : Expr → Except Diagnostic Leaf
  | .hole span | .node .spread span _ => source.malformed "Holes and spreads are not allowed" span
  | value => source.leafOf value

/-- The key of a property, as a text. Only `["__proto__"]` may stand in brackets. -/
def key (source : Source) (span : Span) : Script.Key → Except Diagnostic String
  | .computed (some "__proto__") _ => .ok "__proto__"
  | .computed _ _ => source.malformed "Only plain properties are allowed" span
  | .name id =>
    if id.name == "__proto__" then source.malformed "Prototype assignment is not allowed" span
    else .ok id.name
  | .string value _ =>
    if value == "__proto__" then source.malformed "Prototype assignment is not allowed" span
    else .ok value
  | .privateName _ | .number _ => source.malformed "Property keys must be strings" span

def property (source : Source) : Expr → Except Diagnostic (String × Leaf)
  | .node (.property .plain key) span parts => do
    let name ← source.key span key
    match parts.getLast? with
    | some value => return (name, ← source.leafOf value)
    | none => source.malformed "Only plain properties are allowed" span
  | .node .spread span _ => source.malformed "Spread properties are not allowed" span
  | other => source.malformed "Only plain properties are allowed" other.span

/-- The list of a body that is for a closure. An object is never filled with a list, so the form
alone tells the two apart. -/
def capturedItems? : List Expr → Option (List Expr)
  | [.node (.property .plain key) _ [value]] =>
    let isCaptured := match key with
      | .name id => id.name == "capturedArgs"
      | .string text _ => text == "capturedArgs"
      | _ => false
    match isCaptured, value.ungrouped with
    | true, .node .array _ items => some items
    | _, _ => none
  | _ => none

def body (source : Source) (value : Expr) : Except Diagnostic Body :=
  match value.ungrouped with
  | .node .array _ items => (items.mapM source.element).map Body.elements
  | .node .object _ fields =>
    match capturedItems? fields with
    | some items => (items.mapM source.element).map Body.captured
    | none => (fields.mapM source.property).map Body.properties
  | other => source.malformed "Unexpected fill body" other.span

/-- `refs[n] = head` -/
def allocation (source : Source) (plain : Bool) (span : Span) (left right : Expr) :
    Except Diagnostic Entry := do
  match plain, left with
  | true, .node .index slotSpan parts =>
    let slot ← source.slot slotSpan parts
    match right.ungrouped with
    | .node .array _ [] => return .allocate slot .array
    | .node .object _ [] => return .allocate slot .object
    | .node .call callSpan (callee :: given) =>
      let target ← source.target callSpan given
      match callee with
      | .name id =>
        if id.name == "__closure" then return .allocate slot (.closure target)
        else if id.name == "__instance" then return .allocate slot (.member target)
        else source.malformed "Unexpected allocation head" callSpan
      | _ => source.malformed "Unexpected allocation head" callSpan
    | other => source.malformed "Unexpected allocation head" other.span
  | _, _ => source.malformed "Expected a reference slot assignment" span

/-- `Object.assign(refs[n], body)` -/
def filling (source : Source) (span : Span) : List Expr → Except Diagnostic Entry
  | [first,second] => do
    match (← source.argument first).ungrouped with
    | .node .index slotSpan parts =>
      let slot ← source.slot slotSpan parts
      return .fill slot (← source.body (← source.argument second))
    | _ => source.malformed "Expected a reference slot" span
  | _ => source.malformed "Object.assign expects two arguments" span

def isAssign : Expr → Bool
  | .node (.member property) _ [.name object] => object.name == "Object" && property.name == "assign"
  | _ => false

def entry (source : Source) (value : Expr) : Except Diagnostic Entry :=
  match value.ungrouped with
  | .assign plain span left right => source.allocation plain span left right
  | .node .call span (callee :: given) =>
    if isAssign callee then source.filling span given
    else (source.leafOf (.node .call span (callee :: given))).map Entry.value
  | other => (source.leafOf other).map Entry.value

/-- The loaders of a script. They may be declared after they are used. -/
def declare (source : Source) : List Stmt → Except Diagnostic Source
  | [] => .ok source
  | .function literal :: rest => do
    let (name, url) ← source.loader literal
    declare { source with loaders := Keyed.insert name url source.loaders } rest
  | _ :: rest => source.declare rest

def entries (source : Source) : List Stmt → Except Diagnostic (List Entry)
  | [] => .ok []
  | .function _ :: rest => source.entries rest
  | .expression value _ :: rest => do
    let first ← source.entry value
    return first :: (← source.entries rest)
  | other :: _ => source.malformed "Unexpected statement" other.span

end Source

def invalidScript (fault : Script.Fault) : Diagnostic :=
  { invariant := .malformedPayload
    message := "Payload is not valid JavaScript: " ++ fault.reason.message }

/-- The payload that a text is. Strings that a script opens with are values like others. -/
def ofText (text : String) : Except Diagnostic Parsed :=
  let chars := text.toList
  match Script.read { types := false, elements := false, goal := .module } chars with
  | .error fault => .error (invalidScript fault)
  | .ok program => do
    let source ← ({ text := chars } : Source).declare program.body
    let entries ← source.entries program.body
    return {
      loaders := source.loaders
      entries := program.directives.map (fun text => .value (.string text)) ++ entries }

end Resumable.Payload
