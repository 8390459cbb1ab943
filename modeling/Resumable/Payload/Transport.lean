import Resumable.Json.Reading
import Resumable.Number.Scaled
import Resumable.Payload.Basic

/-! Payloads as JSON, for another program to pass on. A number that JSON cannot hold is written as
null and not read back. -/
namespace Resumable.Payload

def Target.toJson (target : Target) : Json :=
  .object [("loader", .string target.loader),("export_name", .string target.name)]

def tagged (tag : String) (content : Json) : Json := .object [(tag, content)]

def numberJson (value : Number) : Json := if value.isFinite then .number value.jsonText else .null

def Leaf.toJson : Leaf → Json
  | undefined => .string "undefined"
  | null => .string "null"
  | boolean value => tagged "bool" (.boolean value)
  | number value => tagged "number" (numberJson value)
  | string value => tagged "string" (.string value)
  | symbol key => tagged "symbol" (.string key)
  | date time => tagged "date" (numberJson time)
  | ref slot => tagged "ref" (Json.ofNat slot)
  | lazy target => tagged "lazy" target.toJson
  | anchor path => tagged "anchor" (.array (path.map Json.ofNat))

def Head.toJson : Head → Json
  | array => .string "array"
  | object => .string "object"
  | closure target => tagged "closure" target.toJson
  | member target => tagged "instance" target.toJson

def Body.toJson : Body → Json
  | elements items => tagged "elements" (.array (items.map Leaf.toJson))
  | properties fields =>
    tagged "properties" (.array (fields.map fun (key, leaf) => .array [.string key,leaf.toJson]))
  | captured items => tagged "captured" (.array (items.map Leaf.toJson))

def Entry.toJson : Entry → Json
  | allocate slot head => tagged "allocate" (.object [("id", Json.ofNat slot),("head", head.toJson)])
  | fill slot body => tagged "fill" (.object [("id", Json.ofNat slot),("body", body.toJson)])
  | value leaf => tagged "value" leaf.toJson

def Parsed.toJson (parsed : Parsed) : Json :=
  .object
    [("loaders", .object (parsed.loaders.map fun (name, url) => (name, .string url))),
     ("entries", .array (parsed.entries.map Entry.toJson))]

def number? : Json → Option Number
  | .number text => Number.readScaled? text
  | _ => none

def Target.ofJson? (json : Json) : Option Target :=
  match Json.fields? ["loader","export_name"] json with
  | some [some loader,some name] => do
    return { loader := ← loader.string?, name := ← name.string? }
  | _ => none

def Leaf.ofJson? : Json → Option Leaf
  | .string "undefined" => some undefined
  | .string "null" => some null
  | .object [("bool", content)] => content.boolean?.map boolean
  | .object [("number", content)] => (number? content).map number
  | .object [("string", content)] => content.string?.map string
  | .object [("symbol", content)] => content.string?.map symbol
  | .object [("date", content)] => (number? content).map date
  | .object [("ref", content)] => (content.natBelow? UInt32.size).map ref
  | .object [("lazy", content)] => (Target.ofJson? content).map lazy
  | .object [("anchor", .array items)] => (items.mapM (Json.natBelow? UInt64.size)).map anchor
  | _ => none

def Head.ofJson? : Json → Option Head
  | .string "array" => some array
  | .string "object" => some object
  | .object [("closure", content)] => (Target.ofJson? content).map closure
  | .object [("instance", content)] => (Target.ofJson? content).map member
  | _ => none

def fieldOfJson? : Json → Option (String × Leaf)
  | .array [.string key,leaf] => (Leaf.ofJson? leaf).map (key, ·)
  | _ => none

def Body.ofJson? : Json → Option Body
  | .object [("elements", .array items)] => (items.mapM Leaf.ofJson?).map elements
  | .object [("properties", .array fields)] => (fields.mapM fieldOfJson?).map properties
  | .object [("captured", .array items)] => (items.mapM Leaf.ofJson?).map captured
  | _ => none

def Entry.ofJson? : Json → Option Entry
  | .object [("allocate", content)] =>
    match Json.fields? ["id","head"] content with
    | some [some id,some head] => do
      return allocate (← id.natBelow? UInt32.size) (← Head.ofJson? head)
    | _ => none
  | .object [("fill", content)] =>
    match Json.fields? ["id","body"] content with
    | some [some id,some body] => do
      return fill (← id.natBelow? UInt32.size) (← Body.ofJson? body)
    | _ => none
  | .object [("value", content)] => (Leaf.ofJson? content).map value
  | _ => none

def loaderOfJson? : String × Json → Option (String × String)
  | (name, .string url) => some (name, url)
  | _ => none

def Parsed.ofJson? (json : Json) : Option Parsed :=
  match Json.fields? ["loaders","entries"] json with
  | some [some (.object loaders),some (.array entries)] => do
    return { loaders := ← loaders.mapM loaderOfJson?, entries := ← entries.mapM Entry.ofJson? }
  | _ => none

/-- Two leaves with the same value. Zero has no sign here, and what is not a number is never the
same. -/
def sameNumber (x y : Number) : Bool :=
  !x.isNaN && !y.isNaN && (x == y || (x.isFinite && y.isFinite && x.significand == 0 && y.significand == 0))

def Leaf.agrees : Leaf → Leaf → Bool
  | number x, number y | date x, date y => sameNumber x y
  | a, b => a == b

def Body.agrees : Body → Body → Bool
  | elements a, elements b | captured a, captured b =>
    a.length == b.length && (a.zip b).all fun (x, y) => x.agrees y
  | properties a, properties b =>
    a.length == b.length && (a.zip b).all fun (x, y) => x.1 == y.1 && x.2.agrees y.2
  | _, _ => false

def Entry.agrees : Entry → Entry → Bool
  | allocate slot head, allocate slot' head' => slot == slot' && head == head'
  | fill slot body, fill slot' body' => slot == slot' && body.agrees body'
  | value leaf, value leaf' => leaf.agrees leaf'
  | _, _ => false

/-- Loaders are compared by name, whatever their order. -/
def Parsed.agrees (a b : Parsed) : Bool :=
  a.loaders.length == b.loaders.length && a.loaders.all (fun entry => b.loaders.contains entry) &&
    a.entries.length == b.entries.length &&
    (a.entries.zip b.entries).all fun (x, y) => x.agrees y

def Parsed.survives? (parsed : Parsed) : Option Bool :=
  ((Json.read? parsed.toJson.text).bind Parsed.ofJson?).map parsed.agrees

end Resumable.Payload
