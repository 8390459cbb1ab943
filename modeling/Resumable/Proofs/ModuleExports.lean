import Mathlib
import Resumable.Proofs.Splicing

/-! The exports of a compiled module. It keeps those of its program, has one for each factory, and gains one for
each top-level declaration and default export that its edits put `export` in front of. They hold back where the
program lists a declaration as an export, under whatever name, and do not look at names that other things are
exported under. A default export without a name is given one behind `class`, or else in front of its parameters. -/
namespace Resumable
open List Builder Plan
variable {closure : Closure}

namespace Script

/-! ### What a program exports -/

/-- A name that a module exports, with the variable of the module that it stands for if there is one. -/
structure Export where
  name : String
  target : Option String
  deriving DecidableEq, Repr

def Export.own (name : String) : Export := ⟨name,some name⟩

def Stmt.exports : Stmt → List Export
  | .exportNames locals exported _ => List.zipWith (fun id other => ⟨other.name,some id.name⟩) locals exported
  | .reexport exported _ => exported.map fun id => ⟨id.name,none⟩
  | .exportDeclaration declaration _ =>
    if declaration.isSignature then [] else declaration.declaredNames.map fun id => .own id.name
  | .exportDefault _ _ => [⟨"default",none⟩]
  | _ => []

def Program.exports (program : Program) : List Export := program.body.flatMap Stmt.exports

end Script

open Script

/-! ### What is listed as an export -/

section
variable {setting : Selecting} {guard : Guard} {builder later : Builder} {name : String}

end

/-! ### What a closure adds -/

/-- A closure gets an export: that of its factory, or one by an edit that puts `export` in front of it. -/
def Closure.addsExport (listed : List String) (closure : Closure) : Bool :=
  match closure.context with
  | .declaration true exported _ => !exported && !listed.contains closure.exportName
  | _ => true

/-- The exports of the module that a program is compiled to, if all that are written can be read: its own, and
one for each closure that adds one. -/
def Analysis.exports (analysis : Analysis) (program : Program) : List Export :=
  program.exports ++ (analysis.tree.closures.filter (Closure.addsExport analysis.exportedNames)).map
      fun closure => .own closure.exportName

/-! ### Exports in a text -/

/-- The texts of the first tokens of a text. -/
def leadingTokens : Nat → List Char → List String
  | 0, _ => []
  | n + 1, text =>
    let reading := readToken false 0 text
    if reading.token.kind == .done then [] else reading.token.text :: leadingTokens n reading.rest

/-- What declarations say in front of the name that they declare. -/
def declarationHeads : List (List String) :=
  [["const"],["class"],["function"],["function","*"],["async","function"],["async","function","*"]]

def endsName : List Char → Bool
  | c :: _ => !Text.isIdentifierPart c && c != '\\'
  | [] => false

/-- Somewhere in a text `export` is followed by the head of a declaration, and that by the name. -/
def ExportsName (code : List Char) (name : String) : Prop :=
  ∃ before head gap after, code = before ++ "export ".toList ++ head ++ gap ++ name.toList ++ after ∧
    leadingTokens 4 head ∈ declarationHeads ∧ gap.all Text.isSpace = true ∧
    ((head ++ gap).getLast?).any Text.isSpace = true ∧ endsName after = true

section
variable {setting : Selecting} {program : Program}

end

/-! ### What is written into the text -/

section
variable {source code : List Char} {edit : Edit} {name : String} {regions : List (Region × List Edit)}
  {tree : Scoping} {withPreamble : Bool}

lemma ExportsName.within (exports : ExportsName code name) (before after : List Char) :
    ExportsName (before ++ code ++ after) name := by
  obtain ⟨front,head,gap,back,rfl,declares,blank,spaced,ends⟩ := exports
  refine ⟨before ++ front,head,gap,back ++ after,by simp only [append_assoc],declares,blank,spaced,?_⟩
  cases back with
  | nil => cases ends
  | cons => exact ends

end

section
variable {source : List Char} {selection : Selection} {program : Program} {analysis : Analysis}
  (is : analyzeBound source selection program = analysis)
include is

end

end Resumable
