import Resumable.Script.Names

/-! The names that a module exports. No name is exported twice, and there is one default at most. -/
namespace Resumable.Script

def Stmt.declaredNames : Stmt → List Ident
  | .variableDecl _ slots _ => Pattern.namesOfAll slots
  | .function literal => literal.head.name.toList
  | .classDecl literal => literal.head.name.toList
  | _ => []

def Stmt.exportedNames : Stmt → List Ident
  | .exportNames _ exported _ | .reexport exported _ => exported
  | .exportDeclaration declaration _ => declaration.declaredNames
  | _ => []

def Stmt.defaultExport? : Stmt → Option Span
  | .exportDefault value _ => some value.span
  | _ => none

def repeatedNames (met : List Ident) : List Ident → List Ident
  | [] => []
  | id :: rest =>
    match met.find? fun other => other.name == id.name with
    | some first => first :: repeatedNames met rest
    | none => repeatedNames (id :: met) rest

def exportFaults (body : List Stmt) : List Fault :=
  let names := body.flatMap Stmt.exportedNames
  let defaults := body.filterMap Stmt.defaultExport?
  let fault (span : Span) : Fault := ⟨span.start,.misplaced "An export"⟩
  (repeatedNames [] names).map (fun id => fault id.span) ++
    (match defaults with
    | [] => []
    | first :: more =>
      more.map (fun _ => fault first) ++
        if names.any fun id => id.name == "default" then [fault first] else [])

end Resumable.Script
