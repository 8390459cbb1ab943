import Resumable.Script.Tree
import Resumable.Text.Units

/-! Trees whose spans stand in the text as the tree is read: each part lies within what it is part of and after the
parts before it. `reach` goes through a tree in that order and gives the offset that it ends at. The decorators of
an exported class may come before `export`, so a class is read with the offset of `export`. -/
namespace Resumable
open Text
variable {span : Span} {first offset : Nat}

def Text.cutsAt (source : List Char) (offset : Nat) : Bool := (dropBytes? source offset).isSome

theorem Text.dropBytes?_add (dropped : dropBytes? text offset = some rest) (more : Nat) :
    dropBytes? text (offset + more) = dropBytes? rest more := by
  fun_induction dropBytes? text offset with
  | case1 text =>
    cases dropped
    rw [Nat.zero_add]
  | case2 => cases dropped
  | case3 c tail offset fits ih =>
    have step : offset + 1 + more = offset + more + 1 := by omega
    have wide : c.utf8Size ≤ offset + more + 1 := by omega
    rw [step,dropBytes?,if_pos wide,← ih dropped]
    congr 1
    omega
  | case4 => cases dropped

namespace Script
open Option Span

def opensClass (source : List Char) (offset : Nat) : Bool :=
  "class".toList.isPrefixOf ((dropBytes? source offset).getD [])

variable {source : List Char} {low high : Nat}

theorem cutsAt_of_opensClass (opens : opensClass source offset = true) : cutsAt source (offset + 5) = true := by
  rw [opensClass, List.isPrefixOf_iff_prefix] at opens
  obtain ⟨rest,equal⟩ := opens
  cases dropped : dropBytes? source offset with
  | none => simp [dropped] at equal
  | some text =>
    rw [dropped,getD_some] at equal
    have letters : "class".toList = ['c','l','a','s','s'] := by decide
    rw [cutsAt,dropBytes?_add dropped,← equal,letters]
    simp [dropBytes?,Char.utf8Size]

def classNameOffset (source : List Char) (start : Nat) : Nat :=
  if opensClass source start then start + 5 else start

theorem le_classNameOffset (source : List Char) (start : Nat) : start ≤ classNameOffset source start := by
  unfold classNameOffset
  split
  · exact Nat.le_add_right ..
  · exact Nat.le_refl _

def Span.fits (source : List Char) (span : Span) : Bool :=
  span.start ≤ span.stop && cutsAt source span.start && cutsAt source span.stop

theorem Span.fits_iff : span.fits source = true ↔ span.start ≤ span.stop ∧ cutsAt source span.start = true ∧
      cutsAt source span.stop = true := by
  simp [fits,and_assoc]

/-- The end of a span, if it comes after an offset and what is read in it has its end within it. -/
def Span.upTo (source : List Char) (span : Span) (reached : Option Nat) (low : Nat) : Option Nat :=
  if low ≤ span.start && span.fits source && reached.any (· ≤ span.stop) then some span.stop else none

theorem Span.upTo_eq_some : span.upTo source reached low = some high ↔ high = span.stop ∧ low ≤ span.start ∧
      span.fits source = true ∧ ∃ last, reached = some last ∧ last ≤ span.stop := by
  unfold upTo
  split
  · rename_i all
    simp only [Bool.and_eq_true,decide_eq_true_eq,any_eq_true] at all
    obtain ⟨⟨lower,fits⟩,last,inside,within⟩ := all
    simp only [some.injEq,lower,fits,true_and]
    exact ⟨fun same => ⟨same.symm,last,inside,within⟩,fun all => all.1.symm⟩
  · rename_i some_
    simp only [Bool.and_eq_true,decide_eq_true_eq,any_eq_true] at some_
    exact ⟨nofun,fun ⟨_,lower,fits,last,inside,within⟩ => absurd ⟨⟨lower,fits⟩,last,inside,within⟩ some_⟩

/-- The end of a span whose parts are read from its start on. -/
def Span.around (source : List Char) (span : Span) (inner : Nat → Option Nat) (low : Nat) : Option Nat :=
  span.upTo source (inner span.start) low

theorem Span.around_eq_some {inner : Nat → Option Nat} :
    span.around source inner low = some high ↔ high = span.stop ∧ low ≤ span.start ∧
      span.fits source = true ∧ ∃ reached, inner span.start = some reached ∧ reached ≤ span.stop :=
  upTo_eq_some

def Span.reach (source : List Char) (span : Span) (low : Nat) : Option Nat := span.around source some low

theorem Span.reach_eq_some :
    span.reach source low = some high ↔ high = span.stop ∧ low ≤ span.start ∧ span.fits source = true := by
  rw [reach,around_eq_some]
  refine and_congr_right fun _ => and_congr_right fun _ => ⟨And.left,fun fits => ⟨fits,_,rfl,?_⟩⟩
  exact (fits_iff.1 fits).1

def identsReach (source : List Char) : List Ident → Nat → Option Nat
  | [], low => some low
  | id :: rest, low => (id.span.reach source low).bind (identsReach source rest)

mutual

def Expr.reach (source : List Char) : Expr → Nat → Option Nat
  | .name id, low | .target id, low | .tag id, low => id.span.reach source low
  | .thisValue span, low | .superValue span, low | .number _ span, low | .string _ span, low
  | .boolean _ span, low | .null span, low | .atom span, low | .hole span, low => span.reach source low
  | .node (.property .method key) span parts, low => span.around source (methodReach source key parts) low
  | .node _ span parts, low => span.around source (exprsReach source parts) low
  | .assign _ span left right, low =>
    span.around source (fun first => (Expr.reach source left first).bind (Expr.reach source right)) low
  | .function literal, low | .arrow literal, low => Func.reach source literal low
  | .classLiteral literal, low => ClassLiteral.reach source literal low 0

/-- A method: its key, which may be an expression, and then a function. -/
def methodReach (source : List Char) (key : Key) : List Expr → Nat → Option Nat
  | [.function literal], low => (key.span.reach source low).bind (Func.reach source literal)
  | [name,.function literal], low =>
    (key.span.around source (Expr.reach source name) low).bind (Func.reach source literal)
  | _, _ => none

def exprsReach (source : List Char) : List Expr → Nat → Option Nat
  | [], low => some low
  | value :: rest, low => (Expr.reach source value low).bind (exprsReach source rest)

def Pattern.reach (source : List Char) : Pattern → Nat → Option Nat
  | .bind id, low => id.span.reach source low
  | .hole, low => some low
  | .object fields, low => patternsReach source fields low
  | .field _ keyParts value, low => (exprsReach source keyParts low).bind (Pattern.reach source value)
  | .array elements, low => patternsReach source elements low
  | .rest pattern, low => Pattern.reach source pattern low
  | .slot decorators pattern initial, low =>
    (exprsReach source decorators low).bind fun named =>
      (Pattern.reach source pattern named).bind (exprsReach source initial)

def patternsReach (source : List Char) : List Pattern → Nat → Option Nat
  | [], low => some low
  | pattern :: others, low => (Pattern.reach source pattern low).bind (patternsReach source others)

def Func.reach (source : List Char) : Func → Nat → Option Nat
  | .mk head params body, low =>
    head.span.around source (fun first =>
        if first ≤ head.paramsStart && cutsAt source head.paramsStart then
          (patternsReach source params head.paramsStart).bind (statementsReach source body)
        else none)
      low

/-- The decorators of a class that starts at `start`: those that end by `first` come before it, and
the others open it. -/
def decoratorsReach (source : List Char) (first start : Nat) : List Expr → Nat → Option Nat
  | [], low => some low
  | decorator :: rest, low =>
    if decorator.span.stop ≤ first then
      (Expr.reach source decorator low).bind (decoratorsReach source first start rest)
    else if opensClass source start then none
    else (Expr.reach source decorator (max low start)).bind (exprsReach source rest)

/-- A class. It comes after `first`, as its decorators do that are not before it. -/
def ClassLiteral.reach (source : List Char) : ClassLiteral → Nat → Nat → Option Nat
  | .mk head decorators base members, low, first =>
    head.span.around source (fun start => (decoratorsReach source first start decorators low).bind fun decorated =>
        (exprsReach source base (max decorated (classNameOffset source start))).bind (membersReach source members))
      (max low first)

def Member.reach (source : List Char) : Member → Nat → Option Nat
  | .method _ _ decorators key keyParts literal span, low =>
    span.around source (fun first => (exprsReach source decorators first).bind fun named =>
        (key.span.around source (exprsReach source keyParts) named).bind (Func.reach source literal))
      low
  | .field _ _ keyParts initial span, low =>
    span.around source (fun first => (exprsReach source keyParts first).bind (exprsReach source initial)) low
  | .block body span, low => span.around source (statementsReach source body) low
  | .signature, low => some low

def membersReach (source : List Char) : List Member → Nat → Option Nat
  | [], low => some low
  | member :: rest, low => (Member.reach source member low).bind (membersReach source rest)

def Stmt.reach (source : List Char) : Stmt → Nat → Option Nat
  | .expression value span, low => span.around source (Expr.reach source value) low
  | .block body span, low => span.around source (statementsReach source body) low
  | .variableDecl _ slots span, low => span.around source (patternsReach source slots) low
  | .function literal, low => Func.reach source literal low
  | .classDecl literal, low => ClassLiteral.reach source literal low 0
  | .returns value span, low => span.around source (exprsReach source value) low
  | .loop parts span, low => span.around source (statementsReach source parts) low
  | .compound parts span, low => span.around source (statementsReach source parts) low
  | .case test body span, low =>
    span.around source (fun first => (exprsReach source test first).bind (statementsReach source body)) low
  | .handler pattern body span, low =>
    span.around source (fun first => (patternsReach source pattern first).bind (Stmt.reach source body)) low
  | .exportNames locals _ span, low => span.around source (identsReach source locals) low
  | .exportDeclaration (.classDecl literal) span, low =>
    span.upTo source (ClassLiteral.reach source literal low span.start) low
  | .exportDeclaration declaration span, low => span.upTo source (Stmt.reach source declaration span.start) low
  | .exportDefault (.classDecl literal) span, low =>
    if span.start < literal.head.span.start then
      span.upTo source (ClassLiteral.reach source literal low span.start) low
    else none
  | .exportDefault value span, low =>
    if span.start < value.span.start then span.upTo source (Stmt.reach source value span.start) low
    else none
  | .enumeration _ initials span, low => span.around source (exprsReach source initials) low
  | .typeOnly body span, low | .ambient body span, low => span.around source (statementsReach source body) low
  | .imports _ span, low | .reexport _ span, low => span.reach source low

def statementsReach (source : List Char) : List Stmt → Nat → Option Nat
  | [], low => some low
  | statement :: rest, low => (Stmt.reach source statement low).bind (statementsReach source rest)

end

/-- What follows `export` at `first`. Decorators of a class may come before it. -/
def Stmt.reachExported (source : List Char) : Stmt → Nat → Nat → Option Nat
  | .classDecl literal, low, first => literal.reach source low first
  | statement, _, first => statement.reach source first

section
variable {source : List Char} {low high : Nat} {parts : List Expr}

theorem Expr.reach_node (reached : (Expr.node shape span parts).reach source low = some high) :
    (∃ key, shape = .property .method key ∧ span.around source (methodReach source key parts) low = some high) ∨
    (∀ key, shape ≠ .property .method key) ∧ span.around source (exprsReach source parts) low = some high := by
  unfold Expr.reach at reached
  split at reached
  all_goals try cases ‹Expr.node _ _ _ = _›
  · exact .inl ⟨_,rfl,reached⟩
  · exact .inr ⟨‹_›,reached⟩

theorem methodReach_parts (reached : methodReach source key parts low = some high) :
    (∃ literal, parts = [.function literal]) ∨ ∃ name literal, parts = [name,.function literal] := by
  unfold methodReach at reached
  split at reached
  · exact .inl ⟨_,rfl⟩
  · exact .inr ⟨_,_,rfl⟩
  · cases reached

theorem methodReach_named (key : Key) (literal : Func) : methodReach source key [.function literal] low =
      (key.span.reach source low).bind (literal.reach source) := rfl

theorem methodReach_computed (key : Key) (name : Expr) (literal : Func) :
    methodReach source key [name,.function literal] low =
      (key.span.around source (name.reach source) low).bind (literal.reach source) := by
  cases name <;> rfl

theorem Stmt.reach_exportDeclaration (declaration : Stmt) (span : Span) :
    (Stmt.exportDeclaration declaration span).reach source low =
      span.upTo source (declaration.reachExported source low span.start) low := by
  cases declaration <;> rfl

theorem Stmt.reach_exportDefault (value : Stmt) (span : Span) : (Stmt.exportDefault value span).reach source low =
      if span.start < value.span.start then
        span.upTo source (value.reachExported source low span.start) low else none := by
  cases value <;> rfl

theorem Stmt.reachExported_cases {statement : Stmt} (reached : statement.reachExported source low first = some high) :
    (∃ literal, statement = .classDecl literal ∧ literal.reach source low first = some high) ∨
      statement.reach source first = some high := by
  unfold Stmt.reachExported at reached
  split at reached
  · exact .inl ⟨_,rfl,reached⟩
  · exact .inr reached

theorem Func.reach_eq_some {head : FunctionHead} {params : List Pattern} {body : List Stmt}
    (reached : (Func.mk head params body).reach source low = some high) :
    high = head.span.stop ∧ low ≤ head.span.start ∧ head.span.fits source = true ∧
      head.span.start ≤ head.paramsStart ∧ cutsAt source head.paramsStart = true ∧
      ∃ middle last, patternsReach source params head.paramsStart = some middle ∧
        statementsReach source body middle = some last ∧ last ≤ head.span.stop := by
  rw [Func.reach,around_eq_some] at reached
  obtain ⟨rfl,lower,fits,last,inside,within⟩ := reached
  split at inside
  · rename_i opened
    simp only [Bool.and_eq_true,decide_eq_true_eq] at opened
    obtain ⟨middle,params,body⟩ := bind_eq_some_iff.1 inside
    exact ⟨rfl,lower,fits,opened.1,opened.2,middle,last,params,body,within⟩
  · cases inside

theorem ClassLiteral.reach_eq_some {head : ClassHead} {decorators base : List Expr} {members : List Member}
    (reached : (ClassLiteral.mk head decorators base members).reach source low first = some high) :
    high = head.span.stop ∧ low ≤ head.span.start ∧ first ≤ head.span.start ∧
      head.span.fits source = true ∧ ∃ decorated extended last,
        decoratorsReach source first head.span.start decorators low = some decorated ∧
        exprsReach source base (max decorated (classNameOffset source head.span.start)) = some extended ∧
        membersReach source members extended = some last ∧ last ≤ head.span.stop := by
  rw [ClassLiteral.reach] at reached
  obtain ⟨rfl,start,fits,last,inside,within⟩ := around_eq_some.1 reached
  obtain ⟨decorated,decorates,inside⟩ := bind_eq_some_iff.1 inside
  obtain ⟨extended,extends_,members⟩ := bind_eq_some_iff.1 inside
  have ⟨lower,after⟩ := Nat.max_le.1 start
  exact ⟨rfl,lower,after,fits,decorated,extended,last,decorates,extends_,members,within⟩

theorem Func.reach_bounds {literal : Func} (reached : literal.reach source low = some high) :
    high = literal.head.span.stop ∧ low ≤ literal.head.span.start ∧
      literal.head.span.fits source = true ∧ literal.head.span.start ≤ literal.head.paramsStart := by
  obtain ⟨head,params,body⟩ := literal
  obtain ⟨stop,lower,fits,start,_⟩ := Func.reach_eq_some reached
  exact ⟨stop,lower,fits,start⟩

theorem ClassLiteral.reach_bounds {literal : ClassLiteral} (reached : literal.reach source low first = some high) :
    high = literal.head.span.stop ∧ low ≤ literal.head.span.start ∧ first ≤ literal.head.span.start ∧
      literal.head.span.fits source = true := by
  obtain ⟨head,decorators,base,members⟩ := literal
  obtain ⟨stop,lower,start,fits,_⟩ := ClassLiteral.reach_eq_some reached
  exact ⟨stop,lower,start,fits⟩

theorem Expr.reach_bounds {value : Expr} (reached : value.reach source low = some high) :
    high = value.span.stop ∧ low ≤ value.span.start ∧ value.span.fits source = true := by
  cases value with
  | node shape span parts =>
    obtain ⟨_,_,reached⟩ | ⟨_,reached⟩ := reach_node reached <;>
    · obtain ⟨stop,lower,fits,_⟩ := around_eq_some.1 reached
      exact ⟨stop,lower,fits⟩
  | assign plain span left right =>
    simp only [Expr.reach] at reached
    obtain ⟨stop,lower,fits,_⟩ := around_eq_some.1 reached
    exact ⟨stop,lower,fits⟩
  | function literal | arrow literal =>
    obtain ⟨stop,lower,fits,_⟩ := Func.reach_bounds reached
    exact ⟨stop,lower,fits⟩
  | classLiteral literal =>
    obtain ⟨stop,lower,_,fits⟩ := ClassLiteral.reach_bounds reached
    exact ⟨stop,lower,fits⟩
  | _ =>
    simp only [Expr.reach] at reached
    exact reach_eq_some.1 reached

theorem exprsReach_last (cuts : cutsAt source low = true) (reached : exprsReach source values low = some high) :
    high = (values.getLast?.map fun value => value.span.stop).getD low ∧ cutsAt source high = true := by
  induction values generalizing low with
  | nil =>
    simp only [exprsReach,some.injEq] at reached
    exact ⟨reached.symm,reached ▸ cuts⟩
  | cons value rest ih =>
    simp only [exprsReach] at reached
    obtain ⟨middle,first,second⟩ := bind_eq_some_iff.1 reached
    obtain ⟨stop,-,fits⟩ := Expr.reach_bounds first
    obtain ⟨last,cuts⟩ := ih (stop ▸ (fits_iff.1 fits).2.2) second
    refine ⟨?_,cuts⟩
    rw [last,stop,List.getLast?_cons]
    cases rest.getLast? <;> rfl

end

/-- Whether the spans of a program stand in its text as its tree is read. -/
def Program.fits (source : List Char) (program : Program) : Bool :=
  (program.span.around source (statementsReach source program.body) 0).isSome

end Script
end Resumable
