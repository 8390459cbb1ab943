import Resumable.Files.Path
import Resumable.Hoisting.Output
import Resumable.Scope.Captures
import Resumable.Script.Grammar
import Resumable.Selection

/-! Compilation of one source text: read it, find its closures and what they capture, and write the
module in which each has an export of its own. -/
namespace Resumable

open Script (Dialect)

/-- Whether a file holds declarations only: `d` stands right before the extension, or one before
that for a plain `ts` file. -/
def isDeclarationFile (extensions : List String) : Bool :=
  match extensions with
  | "ts" :: "d" :: _ | "mts" :: "d" :: _ | "cts" :: "d" :: _ => true
  | "ts" :: _ :: "d" :: _ => true
  | _ => false

def dialectOf (path : String) : Dialect :=
  let extensions := Path.extensions path
  let isAmbient := isDeclarationFile extensions
  match extensions with
  | "js" :: _ => { types := false, elements := false, goal := .either }
  | "jsx" :: _ => { types := false, elements := true, goal := .either }
  | "mjs" :: _ => { types := false, elements := false, goal := .module }
  | "cjs" :: _ => { types := false, elements := false, goal := .wrapped }
  | "ts" :: _ => { types := true, elements := false, goal := .module, isAmbient }
  | "tsx" :: _ => { types := true, elements := true, goal := .module }
  | "mts" :: _ => { types := true, elements := false, goal := .module, isAmbient }
  | "cts" :: _ => { types := true, elements := false, goal := .wrapped, isAmbient }
  | _ => { types := true, elements := true, goal := .module }

/-- What a caller learns of a closure. Lines count from one. -/
structure ClosureSummary where
  exportName : String
  name : Option String
  kind : String
  params : List String
  imports : List String
  hoisted : Bool
  line : Nat
  column : Nat
  deriving DecidableEq, Repr

structure Compiled where
  code : String
  map : Option String
  closures : List ClosureSummary
  deriving DecidableEq, Repr

def LiteralKind.name : LiteralKind → String
  | function => "function"
  | arrow => "arrow"
  | classLiteral => "class"

def faultDiagnostic (file : String) (source : List Char) (fault : Script.Fault) : Diagnostic :=
  let position := (Text.LineStarts.ofText source).position source fault.offset
  { invariant := .parse
    message := fault.reason.message
    file
    line := position.line + 1
    column := position.column }

def closureInfo (source : List Char) (index : Text.LineStarts) (tree : Scoping)
    (closure : Closure) : ClosureSummary :=
  let position := index.position source closure.span.start
  { exportName := closure.exportName
    name := closure.name
    kind := closure.kind.name
    params := closure.params
    imports := ((tree.scope? closure.scope).map Scope.imports).getD []
    hoisted := closure.isLifted
    line := position.line + 1
    column := position.column }

def analyzeBound (source : List Char) (selection : Selection) (program : Script.Program) :
    Analysis :=
  let analysis := analyze { source, selects := selection.selects } program
  { analysis with tree := analysis.tree.bindAll }

def compileWith (text : String) (options : Options) (selection : Selection) : Except Diagnostic Compiled :=
  let source := text.toList
  match Script.read (dialectOf options.filename) source with
  | .error fault => .error (faultDiagnostic options.filename source fault)
  | .ok program => do
    let analysis := analyzeBound source selection program
    let output ← analysis.output source options
    let index := Text.LineStarts.ofText source
    return {
      code := output.code
      map := output.map
      closures := analysis.tree.closures.map (closureInfo source index analysis.tree) }

def compile (text : String) (options : Options) : Except Diagnostic Compiled := do
  compileWith text options (← options.selection)

end Resumable
