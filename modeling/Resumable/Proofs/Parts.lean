import Resumable.Scope.Building
import Resumable.Script.Exports

/-! The parts of code that an analysis finds in it: the names that it binds, and the functions and classes that it
declares below the top level. -/
namespace Resumable.Script
open Ident

inductive Part where
  | binding (name : String)
  /-- A function or class that is declared below the top level: whether it is a statement of a list, and
  where the statements start of the innermost list around it. -/
  | declaration (inList : Bool) (around : List Nat) (name : Option String) (span : Span)
  deriving DecidableEq, Repr

def Ident.bindings (ids : List Ident) : List Part := ids.map fun id => .binding id.name

/-- A function or class that is declared, by where it stands. An export below the top level declares
nothing. -/
def declarationParts (level : Level) (inList : Bool) (around : List Nat) (name : Option Ident)
    (span : Span) : List Part :=
  if level == .nested then [.declaration inList around (declaredName name) span] else []

mutual

def Expr.parts : Expr → List Part
  | .node _ _ inner => exprsParts inner
  | .assign _ _ left right => left.parts ++ right.parts
  | .function literal | .arrow literal => literal.parts
  | .classLiteral literal => literal.parts
  | _ => []

def exprsParts : List Expr → List Part
  | [] => []
  | value :: rest => value.parts ++ exprsParts rest

/-- Those within a pattern. The names of the pattern are bound where it stands. -/
def Pattern.parts : Pattern → List Part
  | .bind _ | .hole => []
  | .object fields => patternsParts fields
  | .field _ keyParts value => exprsParts keyParts ++ value.parts
  | .array elements => patternsParts elements
  | .rest pattern => pattern.parts
  | .slot decorators pattern initial =>
    exprsParts decorators ++ (pattern.parts ++ exprsParts initial)

def patternsParts : List Pattern → List Part
  | [] => []
  | pattern :: others => pattern.parts ++ patternsParts others

def Func.parts : Func → List Part
  | .mk head params body => bindings head.name.toList ++ (bindings (Params.names params) ++
      (patternsParts params ++ statementsParts .nested true (starts body) body))

def ClassLiteral.parts : ClassLiteral → List Part
  | .mk head decorators base members => bindings head.name.toList ++
      (exprsParts decorators ++ (exprsParts base ++ membersParts members))

def Member.parts : Member → List Part
  | .method _ _ decorators _ keyParts literal _ => exprsParts decorators ++ (exprsParts keyParts ++ literal.parts)
  | .field _ _ keyParts initial _ => exprsParts keyParts ++ exprsParts initial
  | .block body _ => statementsParts .nested true (starts body) body
  | .signature => []

def membersParts : List Member → List Part
  | [] => []
  | member :: rest => member.parts ++ membersParts rest

/-- The parts of a statement, which is one of a list or not. `around` is where the statements start of the
innermost list around it. -/
def Stmt.parts (level : Level) (inList : Bool) (around : List Nat) : Stmt → List Part
  | .expression value _ => value.parts
  | .block body _ => statementsParts .nested true (starts body) body
  | .variableDecl _ slots _ => bindings (Pattern.namesOfAll slots) ++ patternsParts slots
  | .function literal => declarationParts level inList around literal.head.name literal.head.span ++ literal.parts
  | .classDecl literal => declarationParts level inList around literal.head.name literal.head.span ++ literal.parts
  | .returns value _ => exprsParts value
  | .loop inner _ | .compound inner _ => statementsParts .nested false around inner
  | .case test body _ => exprsParts test ++ statementsParts .nested true (starts body) body
  | .handler pattern body _ => bindings (Pattern.namesOfAll pattern) ++
      (patternsParts pattern ++ body.parts .nested false around)
  | .imports locals _ => bindings locals
  | .exportDeclaration declaration _ => declaration.parts (if level == .top then .exported else .loose) false around
  | .exportDefault value _ => value.defaultParts
  | .enumeration id initials _ => if level == .loose then exprsParts initials else [.binding id.name]
  | .typeOnly body _ => if level == .loose then statementsParts .nested true (starts body) body else []
  | .ambient body _ => statementsParts .nested true (starts body) body
  | _ => []

def statementsParts (level : Level) (inList : Bool) (around : List Nat) : List Stmt → List Part
  | [] => []
  | statement :: rest => statement.parts level inList around ++ statementsParts level inList around rest

def Stmt.defaultParts : Stmt → List Part
  | .function literal => literal.parts
  | .classDecl literal => literal.parts
  | .expression value _ => value.parts
  | _ => []

end

/-! ### What a program declares and lists -/

def Stmt.isSignature : Stmt → Bool
  | .function literal => !literal.head.hasBody
  | .classDecl literal => literal.head.isAmbient
  | _ => false

def Stmt.exportedDeclaration? : Stmt → Option Stmt
  | .exportDeclaration declaration _ => some declaration
  | _ => none

/-- The variables that a statement lists as exports, under whatever names. -/
def Stmt.listedNames : Stmt → List String
  | .exportNames locals _ _ => locals.map name
  | _ => []

namespace Program

def parts (program : Program) : List Part := statementsParts .top true (starts program.body) program.body

def binds (program : Program) : List String :=
  program.parts.filterMap fun part => match part with
    | .binding name => some name
    | _ => none

theorem mem_binds {program : Program} {name : String} : name ∈ program.binds ↔ .binding name ∈ program.parts := by
  refine List.mem_filterMap.trans ⟨?_,fun bound => ⟨_,bound,rfl⟩⟩
  rintro ⟨part,listed,is⟩
  cases part with
  | binding other => exact Option.some.inj is ▸ listed
  | _ => cases is

def listedNames (program : Program) : List String := program.body.flatMap Stmt.listedNames

def declarations (program : Program) (exported : Bool) : List Stmt :=
  if exported then program.body.filterMap Stmt.exportedDeclaration? else program.body

end Program
end Resumable.Script
