import Resumable.Json.Basic

/-! What went wrong, and which promise of the library it concerns. A diagnostic raised outside any
source file has an empty file name and no position. -/
namespace Resumable

inductive Invariant where
  | parse
  | bindingArity
  | missingDeclaration
  | cyclicClosures
  | overlappingEdits
  | unserializable
  | malformedPayload
  | moduleLoad
  | notExported
  | anchorNotFound
  | invalidOptions
  | inputOutput
  | foreign (code : String)
  deriving DecidableEq, Repr

namespace Invariant

def code : Invariant → String
  | parse => "HB-ERR-PARSE-001"
  | bindingArity => "HB-ERR-RESOLVE-001"
  | missingDeclaration => "HB-ERR-RESOLVE-002"
  | cyclicClosures => "HB-ERR-RESOLVE-003"
  | overlappingEdits => "HB-ERR-REWRITE-001"
  | unserializable => "HB-ERR-HIBERNATE-001"
  | malformedPayload => "HB-ERR-HYDRATE-001"
  | moduleLoad => "HB-ERR-HYDRATE-002"
  | notExported => "HB-ERR-HYDRATE-003"
  | anchorNotFound => "HB-ERR-HYDRATE-004"
  | invalidOptions => "HB-ERR-CONFIG-001"
  | inputOutput => "HB-ERR-IO-001"
  | foreign code => code

def known : List Invariant :=
  [parse,bindingArity,missingDeclaration,cyclicClosures,overlappingEdits,unserializable,
   malformedPayload,moduleLoad,notExported,anchorNotFound,invalidOptions,inputOutput]

def ofCode (code : String) : Invariant :=
  (known.find? fun invariant => invariant.code == code).getD (foreign code)

def guarantee : Invariant → String
  | parse => "Malformed source never produces partial output."
  | bindingArity => "Every hoisted closure takes exactly one parameter per captured binding."
  | missingDeclaration => "Every captured binding resolves to the same declaration at its call site."
  | cyclicClosures => "A JSX tag never names a closure that is only reachable through a lazy reference."
  | overlappingEdits => "Source edits never overlap within one region."
  | unserializable => "Only closures carrying an origin descriptor can be hibernated."
  | malformedPayload => "Hydration only accepts payloads produced by the hibernator."
  | moduleLoad => "A failed module load rejects only the branch that needed it."
  | notExported => "Lazy descriptors name an export of the module they load."
  | anchorNotFound => "DOM anchors resolve against the hydration root."
  | invalidOptions => "Transform options are validated before compilation starts."
  | inputOutput => "Batch compilation reports unreadable files instead of skipping them."
  | foreign _ => "Unknown invariant."

def family : Invariant → String
  | parse => "PARSE_ERROR"
  | bindingArity | missingDeclaration | overlappingEdits => "COMPILER_INVARIANT_VIOLATION"
  | cyclicClosures => "UNSUPPORTED_CAPTURE"
  | unserializable => "SERIALIZATION_ERROR"
  | malformedPayload | moduleLoad | notExported | anchorNotFound => "HYDRATION_ERROR"
  | invalidOptions => "CONFIG_ERROR"
  | inputOutput => "IO_ERROR"
  | foreign _ => "COMPILER_INVARIANT_VIOLATION"

end Invariant

structure Diagnostic where
  invariant : Invariant
  message : String
  file : String := ""
  line : Nat := 0
  column : Nat := 0
  context : Option String := none
  hints : List String := []
  deriving DecidableEq, Repr

namespace Diagnostic

def addHint (d : Diagnostic) (hint : String) : Diagnostic := { d with hints := d.hints ++ [hint] }

def display (d : Diagnostic) : String :=
  let place := if d.file.isEmpty then ""
    else " (" ++ d.file ++ ":" ++ toString d.line ++ ":" ++ toString d.column ++ ")"
  let context := (d.context.map ("\n  context: " ++ ·)).getD ""
  let hints := String.join (d.hints.map ("\n  hint: " ++ ·))
  "[" ++ d.invariant.code ++ "] " ++ d.message ++ place ++ context ++ hints

def toJson (d : Diagnostic) : Json :=
  .object
    [("code", .string d.invariant.code),
     ("errorType", .string d.invariant.family),
     ("message", .string d.message),
     ("guarantee", .string d.invariant.guarantee),
     ("file", .string d.file),
     ("line", Json.ofNat d.line),
     ("column", Json.ofNat d.column),
     ("context", Json.ofOption Json.string d.context),
     ("hints", Json.strings d.hints)]

end Diagnostic

end Resumable
