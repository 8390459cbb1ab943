import Resumable.Script.Exports
import Resumable.Script.Grammar.Modules

/-! Scripts from text. The rules of the grammar are tied into a knot of bounded depth; a script
cannot nest deeper than it is long, so the bound is never met. -/
namespace Resumable.Script

def Rules.deep : Nat → Rules
  | 0 => Rules.exhausted
  | depth + 1 =>
    { statement := fun single context state =>
        Grammar.statement (Rules.deep depth) single context state
      assignment := fun returnType context state =>
        Grammar.assignment (Rules.deep depth) returnType context state
      operators := fun strength context state => Grammar.operators (Rules.deep depth) strength context state
      unary := fun context state => Grammar.unary (Rules.deep depth) context state
      primary := fun context state => Grammar.primary (Rules.deep depth) context state
      leftSide := fun context state => Grammar.leftSide (Rules.deep depth) context state
      pattern := fun context state => Grammar.pattern (Rules.deep depth) context state
      type := fun context state => Grammar.type (Rules.deep depth) context state
      typeOperator := fun context state => Grammar.typeOperator (Rules.deep depth) context state
      element := fun child context state => Grammar.element (Rules.deep depth) child context state }

def Rules.depthFor (length : Nat) : Nat := 8 * length + 64

def skipFirstLine (text : List Char) : Nat × List Char :=
  match text with
  | '#' :: '!' :: _ =>
    let line := text.takeWhile fun c => !isLineBreak c
    (Text.byteLength line, text.drop line.length)
  | text => (0, text)

def topContext (dialect : Dialect) : Context where
  dialect := dialect
  await := dialect.isModule
  inFunction := dialect.goal == .wrapped
  isAmbient := dialect.isAmbient

def initialState (dialect : Dialect) (text : List Char) : State :=
  let (offset, rest) := skipFirstLine text
  let reading := readToken (!dialect.isModule) offset rest
  { token := reading.token, rest := reading.rest, tokenFaults := reading.faults.reverse }

structure Reader where
  program : Option Program
  faults : List Fault
  moduleSyntax : Bool

def readAs (dialect : Dialect) (text : List Char) : Reader :=
  let rules := Rules.deep (Rules.depthFor text.length)
  let found (state : State) (fatal : List Fault) : List Fault :=
    state.tokenFaults.reverse ++ state.faults.reverse ++ fatal ++
      state.patternOnly.map fun offset => ⟨offset,.misplaced "A default"⟩
  match Grammar.statements rules false (topContext dialect) (initialState dialect text) with
  | .done (directives, body) state =>
    { program := some { span := ⟨0,Text.byteLength text⟩, directives, body }
      faults := found state [] ++ if dialect.types then [] else exportFaults body
      moduleSyntax := state.moduleSyntax }
  | .failed fault state =>
    { program := none, faults := found state [fault], moduleSyntax := state.moduleSyntax }

def readEither (dialect : Dialect) (text : List Char) : Reader :=
  match dialect.goal with
  | .either =>
    let asScript := readAs { dialect with goal := .script } text
    if asScript.moduleSyntax then readAs { dialect with goal := .module } text else asScript
  | _ => readAs dialect text

def read (dialect : Dialect) (text : List Char) : Except Fault Program :=
  let reader := readEither dialect text
  match reader.faults, reader.program with
  | fault :: _, _ => .error fault
  | [], some program => .ok program
  | [], none => .error ⟨0,.unexpected⟩

end Resumable.Script
