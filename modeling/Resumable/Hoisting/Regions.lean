import Resumable.Hoisting.Calls
import Resumable.Text.Category

/-! The edits of a program, by region: what stays in the program, and one region per hoisted
closure. -/
namespace Resumable

open Script (Span)

/-- The hoisted closure that a piece of text moves with. -/
abbrev Region := Option ClosureIndex

structure RegionEdit where
  region : Region
  edit : Edit
  deriving DecidableEq, Repr

def registration (name : String) : String := "__closure(" ++ name ++ ", \"" ++ name ++ "\", [])"

def Edit.ofSpan (span : Span) (text : String) : Edit := ⟨span.start,span.stop,text⟩

namespace Plan

def declarationEdits (plan : Plan) (id : ClosureIndex) (closure : Closure) (statement : Span) :
    Except Diagnostic (List Edit) :=
  match plan.placement? id with
  | some (.bound start isMutable) => do
    let keyword := if isMutable then "let" else "const"
    let name := closure.name.getD closure.exportName
    let binding := keyword ++ " " ++ name ++ " = " ++ (← plan.callOf id closure) ++ ";"
    if start == statement.start then return [Edit.ofSpan statement binding]
    return [Edit.insert start (binding ++ " "),Edit.ofSpan statement ""]
  | _ => .ok [Edit.ofSpan statement ""]

def methodEdits (member key : Span) (computed : Bool) (before joint call after : String) : List Edit :=
  let opening := if computed then "[" else ""
  let closing := if computed then "]" else ""
  [⟨member.start,key.start,before ++ opening⟩,
   ⟨key.stop,member.stop,closing ++ joint ++ call ++ after⟩]

def siteEdits (plan : Plan) (id : ClosureIndex) (closure : Closure) : Except Diagnostic (List Edit) :=
  match closure.context with
  | .declaration _ _ statement => plan.declarationEdits id closure statement
  | .expression => do return [Edit.ofSpan closure.span (← plan.callOf id closure)]
  | .objectMethod member key computed => do
    return methodEdits member key computed "" ": " (← plan.callOf id closure) ""
  | .classMethod member key computed isStatic => do
    return methodEdits member key computed (if isStatic then "static " else "") " = "
      (← plan.callOf id closure) ";"
  | .defaultExport _ _ => .ok []

end Plan

def nameOffset (source : List Char) (closure : Closure) : Nat :=
  let opens := "class".toList.isPrefixOf
    ((Text.dropBytes? source closure.span.start).getD [])
  if closure.kind == .classLiteral && opens then closure.span.start + 5 else closure.paramsStart

def nameEdit (source : List Char) (closure : Closure) : Edit :=
  let offset := nameOffset source closure
  let before := (Text.takeBytes? source offset).getD []
  let spaced := ((before.getLast?).map Text.isSpace).getD false
  Edit.insert offset ((if spaced then "" else " ") ++ closure.exportName)

def editsInPlace (source : List Char) (exportedNames : List String) (closure : Closure) : List Edit :=
  let name := closure.exportName
  match closure.context with
  | .declaration _ exported statement =>
    (if exported || exportedNames.contains name then []
      else [Edit.insert statement.start "export "]) ++
    [Edit.insert statement.stop ("\n" ++ registration name ++ ";")]
  | .defaultExport statement true =>
    [⟨statement.start,closure.span.start,"export "⟩] ++
    (if closure.hasOwnName then [] else [nameEdit source closure]) ++
    [Edit.insert statement.stop ("\nexport default " ++ name ++ ";\n" ++ registration name ++ ";")]
  | .defaultExport statement false =>
    [⟨statement.start,closure.span.start,"export const " ++ name ++ " = "⟩,
     ⟨closure.span.stop,statement.stop,
      ";\nexport default " ++ name ++ ";\n" ++ registration name ++ ";"⟩]
  | _ => []

namespace Plan

def referenceEdits (plan : Plan) : Except Diagnostic (List RegionEdit) := do
  let edits ← plan.tree.rootReferences.mapM fun reference => do
    let edit ← plan.useEdit reference
    return edit.map (⟨plan.tree.regionAround reference.scope,·⟩)
  return edits.filterMap id

def closureEdits (plan : Plan) (source : List Char) (exportedNames : List String) :
    Except Diagnostic (List RegionEdit) := do
  let edits ← (plan.tree.closures.zipIdx).mapM fun (closure, id) => do
    if closure.isLifted then
      let edits ← plan.siteEdits id closure
      return edits.map fun edit => (⟨plan.tree.homeRegion closure,edit⟩ : RegionEdit)
    else
      return (editsInPlace source exportedNames closure).map fun edit => ⟨none,edit⟩
  return edits.flatten

def edits (plan : Plan) (source : List Char) (exportedNames : List String) :
    Except Diagnostic (List RegionEdit) := do
  let references ← plan.referenceEdits
  let closures ← plan.closureEdits source exportedNames
  return references ++ closures

end Plan

def editsOf (edits : List RegionEdit) (region : Region) : List Edit :=
  edits.filterMap fun entry => if entry.region == region then some entry.edit else none

end Resumable
