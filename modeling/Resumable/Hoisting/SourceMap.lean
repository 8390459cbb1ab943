import Resumable.Hoisting.Emission

/-! Source maps: mappings as text, and the JSON object around them. -/
namespace Resumable.SourceMap

def digits : List Char := "ABCDEFGHIJKLMNOPQRSTUVWXYZabcdefghijklmnopqrstuvwxyz0123456789+/".toList

def digit (n : Nat) : Char := digits.getD n 'A'

def groups : Nat → Nat → List Char
  | 0, _ => []
  | fuel + 1, n => if n < 32 then [digit n] else digit (32 + n % 32) :: groups fuel (n / 32)

def encode (value : Int) : List Char :=
  let n := 2 * value.natAbs + (if value < 0 then 1 else 0)
  groups (n + 1) n

def segment (column : Nat) (source : Text.Position) (mapping : Mapping) : List Char :=
  encode ((mapping.output.column : Int) - column) ++ encode 0 ++
    encode ((mapping.source.line : Int) - source.line) ++
    encode ((mapping.source.column : Int) - source.column)

/-- The mappings after a given one. Lines are ended by `;`, and a mapping that repeats the one
before it on its line is left out. -/
def segmentsAfter (before : Mapping) : List Mapping → List Char
  | [] => []
  | mapping :: rest =>
    let lines := mapping.output.line - before.output.line
    if lines = 0 then
      if mapping = before then segmentsAfter before rest
      else ',' :: segment before.output.column before.source mapping ++ segmentsAfter mapping rest
    else
      List.replicate lines ';' ++ segment 0 before.source mapping ++ segmentsAfter mapping rest

def mappingsText : List Mapping → List Char
  | [] => []
  | first :: rest =>
    List.replicate first.output.line ';' ++ segment 0 ⟨0,0⟩ first ++ segmentsAfter first rest

def toJson (file : String) (source : List Char) (mappings : List Mapping) : Json :=
  .object
    [("version", Json.ofNat 3),
     ("file", .string file),
     ("sources", Json.strings [file]),
     ("sourcesContent", Json.strings [String.ofList source]),
     ("names", Json.strings []),
     ("mappings", .string (String.ofList (mappingsText mappings)))]

end Resumable.SourceMap
