import Resumable.Compile
import Resumable.Digest
import Resumable.Files.Basic

/-! Results of earlier compilations, each in a file of its own and kept by a digest of source and
options. -/
namespace Resumable

namespace ClosureSummary

def fieldNames : List String :=
  ["alias","name","kind","params","imports","hoisted","line","column"]

def toJson (info : ClosureSummary) : Json :=
  .object
    [("alias", .string info.exportName),
     ("name", Json.ofOption Json.string info.name),
     ("kind", .string info.kind),
     ("params", Json.strings info.params),
     ("imports", Json.strings info.imports),
     ("hoisted", .boolean info.hoisted),
     ("line", Json.ofNat info.line),
     ("column", Json.ofNat info.column)]

def strings? (json : Json) : Option (List String) := json.array?.bind fun items => items.mapM Json.string?

def ofJson? (json : Json) : Option ClosureSummary :=
  match Json.allFields? fieldNames json with
  | some [some exportName,name,some kind,some params,some imports,some hoisted,some line,
      some column] => do
    return {
      exportName := ← exportName.string?
      name := ← (name.getD .null).nullable? Json.string?
      kind := ← kind.string?
      params := ← strings? params
      imports := ← strings? imports
      hoisted := ← hoisted.boolean?
      line := ← line.natBelow? UInt32.size
      column := ← column.natBelow? UInt32.size }
  | _ => none

end ClosureSummary

namespace Compiled

def toJson (compiled : Compiled) : Json :=
  .object
    [("code", .string compiled.code),
     ("map", Json.ofOption Json.string compiled.map),
     ("closures", .array (compiled.closures.map ClosureSummary.toJson))]

def ofJson? (json : Json) : Option Compiled :=
  match Json.allFields? ["code","map","closures"] json with
  | some [some code,map,some closures] => do
    return {
      code := ← code.string?
      map := ← (map.getD .null).nullable? Json.string?
      closures := ← closures.array?.bind fun items => items.mapM ClosureSummary.ofJson? }
  | _ => none

end Compiled

namespace Cache

/-- The bytes that a source and its options are told apart by. A zero byte stands between them. -/
def keyBytes (source : String) (options : Options) : List UInt8 :=
  source.toUTF8.toList ++ 0 :: options.text.toUTF8.toList

def digest (source : String) (options : Options) : String := Digest.hex (keyBytes source options)

structure Entry where
  hash : String
  output : Compiled
  deriving DecidableEq, Repr

def Entry.toJson (entry : Entry) : Json :=
  .object [("hash", .string entry.hash),("output", entry.output.toJson)]

def Entry.ofJson? (json : Json) : Option Entry :=
  match Json.allFields? ["hash","output"] json with
  | some [some hash,some output] => do
    return { hash := ← hash.string?, output := ← Compiled.ofJson? output }
  | _ => none

def defaultFolder : String := ".hibernate/cache"

/-- The name of an entry's file: the path of the source, in one piece. -/
def entryName (path : String) : String :=
  String.ofList (path.toList.map fun c => if c == '/' || c == '\\' || c == ':' then '_' else c) ++
    ".json"

def entryPath (folder path : String) : String := Path.join folder (entryName path)

def «open» (folder : String) (files : Files) : Files :=
  if (files.locate? folder).isSome then files else files.makeFolder folder

/-- The result kept for a source, if it was made from this text with these options. An entry that
cannot be read is removed. -/
def get (folder path source : String) (options : Options) (files : Files) : Option Compiled × Files :=
  match files.text? (entryPath folder path) with
  | none => (none, files)
  | some text =>
    match (Json.read? text).bind Entry.ofJson? with
    | none => (none, files.remove (entryPath folder path))
    | some entry =>
      (if entry.hash == digest source options then some entry.output else none, files)

def set (folder path source : String) (options : Options) (output : Compiled) (files : Files) :
    Files :=
  let entry : Entry := { hash := digest source options, output }
  (files.write? (entryPath folder path) entry.toJson.text.toUTF8.toList).getD files

end Cache

end Resumable
