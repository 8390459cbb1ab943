import Resumable.Options
import Resumable.Hoisting.SourceMap
import Resumable.Scope.Building

/-! The text of a compiled program: the program with its closures taken out, then one factory per
hoisted closure in order of declaration, then the functions that they call. -/
namespace Resumable

def preamble : String :=
"
function __closure(fn, exportName, capturedArgs) \x7b
  Object.defineProperty(fn, \"$origin\", \x7b
    value: \x7b url: import.meta.url, exportName, capturedArgs \x7d,
    configurable: true,
  \x7d);
  return fn;
\x7d

function __lazyRef(exportName, resolve) \x7b
  const ref = () => resolve();
  Object.defineProperty(ref, \"$lazy\", \x7b
    value: \x7b url: import.meta.url, exportName \x7d,
    configurable: true,
  \x7d);
  return ref;
\x7d
"

structure Output where
  code : String
  map : Option String
  deriving DecidableEq, Repr

def methodHead (closure : Closure) : String :=
  (if closure.isAsync then "async " else "") ++ "function" ++
    (if closure.isGenerator then "*" else "") ++ " "

def literalPieces (source : List Char) (closure : Closure) (edits : List Edit) : List Piece :=
  if closure.context.isMethod then
    Piece.ofString (methodHead closure) ++ Piece.splice source closure.paramsStart closure.span.stop edits
  else Piece.splice source closure.span.start closure.span.stop edits

def Closure.ownBinding? (closure : Closure) : Option String :=
  if closure.selfReferencing then closure.selfName else none

def factoryHead (closure : Closure) : String :=
  let opening := match closure.ownBinding? with
    | some name => "  const " ++ name ++ " = __closure("
    | none => "  return __closure("
  "\n\nexport function " ++ closure.exportName ++ "(" ++ String.intercalate ", " closure.params ++
    ") \x7b\n" ++ opening

def factoryTail (closure : Closure) : String :=
  let closing := match closure.ownBinding? with
    | some name => "  return " ++ name ++ ";\n"
    | none => ""
  ", \"" ++ closure.exportName ++ "\", [" ++ String.intercalate ", " closure.params ++ "]);\n" ++
    closing ++ "\x7d"

def factoryPieces (source : List Char) (closure : Closure) (edits : List Edit) : List Piece :=
  Piece.ofString (factoryHead closure) ++ literalPieces source closure edits ++
    Piece.ofString (factoryTail closure)

def checkRegions (file : String) (tree : Scoping) (edits : List RegionEdit) :
    Except Diagnostic (List (Region × List Edit)) :=
  let regions := none :: (List.range tree.closures.length).map some
  regions.mapM fun region => do
    return (region, ← Edit.check file (editsOf edits region))

def sortedEdits (regions : List (Region × List Edit)) (region : Region) : List Edit :=
  ((regions.find? fun entry => entry.1 == region).map (·.2)).getD []

def outputPieces (source : List Char) (tree : Scoping) (withPreamble : Bool)
    (regions : List (Region × List Edit)) : List Piece :=
  Piece.splice source 0 (Text.byteLength source) (sortedEdits regions none) ++
    (tree.closures.zipIdx).flatMap (fun (closure, id) =>
      if closure.isLifted then
        factoryPieces source closure (sortedEdits regions (some id))
      else []) ++
    (if withPreamble && !tree.closures.isEmpty then Piece.ofString preamble else [])

def Analysis.output (analysis : Analysis) (source : List Char) (options : Options) :
    Except Diagnostic Output := do
  let plan := analysis.tree.plan options.filename
  let edits ← plan.edits source analysis.exportedNames
  let regions ← checkRegions options.filename analysis.tree edits
  let pieces := outputPieces source analysis.tree options.preamble regions
  let map := if options.sourceMap then
      some (SourceMap.toJson options.filename source (mappings source pieces)).text
    else none
  return { code := String.ofList (Piece.code pieces), map }

end Resumable
