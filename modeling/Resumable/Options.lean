import Resumable.Diagnostic
import Resumable.Json.Reading

/-! What a caller can ask of a compilation. -/
namespace Resumable

structure Options where
  filename : String := ""
  /-- A regular expression over the names of closures; an anonymous one is matched as the empty
  text. Without it every closure is selected. -/
  selectClosures : Option String := none
  preamble : Bool := true
  sourceMap : Bool := false
  deriving DecidableEq, Repr

namespace Options

def fieldNames : List String := ["filename","selectClosures","preamble","sourceMap"]

def toJson (options : Options) : Json :=
  .object
    [("filename", .string options.filename),
     ("selectClosures", Json.ofOption Json.string options.selectClosures),
     ("preamble", .boolean options.preamble),
     ("sourceMap", .boolean options.sourceMap)]

def fieldOr {α : Type} (read : Json → Option α) (fallback : α) : Option Json → Option α
  | none => some fallback
  | some value => read value

def ofJson? (json : Json) : Option Options :=
  match Json.fields? fieldNames json with
  | some [filename,selectClosures,preamble,sourceMap] => do
    return {
      filename := ← fieldOr Json.string? "" filename
      selectClosures := ← fieldOr (Json.nullable? Json.string?) none selectClosures
      preamble := ← fieldOr Json.boolean? true preamble
      sourceMap := ← fieldOr Json.boolean? false sourceMap }
  | _ => none

def invalid (text : String) : Diagnostic :=
  { invariant := .invalidOptions
    message := "Invalid transform options: not an object of options"
    context := some text }

def ofText (text : String) : Except Diagnostic Options :=
  match (Json.read? text).bind ofJson? with
  | some options => .ok options
  | none => .error (invalid text)

def text (options : Options) : String := options.toJson.text

end Options

end Resumable
