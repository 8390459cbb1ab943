import Resumable.Proofs.LexicalScoping

/-! Uses of `super` that bind outside a literal. Functions and the members of a class bind their own; arrow
functions and the head of a class do not. A literal with such a use in its body is not made a closure; uses in its
parameters, and in the head of a class, do not keep it from being one, and neither do private names of classes
around it. -/
namespace Resumable

variable {construct : Construct} {candidate : Candidate}

namespace Script

/-- What a use of `super` is part of: the parameters of a literal, its body, or the head of a class. -/
inductive Zone where
  | parameters
  | body
  | classHead
  deriving DecidableEq, Repr

structure SuperUse where
  span : Span
  zone : Zone := .body
  deriving DecidableEq, Repr

namespace SuperUse

def inHead (use : SuperUse) : SuperUse := { use with zone := .classHead }

def inParams (use : SuperUse) : SuperUse :=
  if use.zone == .classHead then use else { use with zone := .parameters }

end SuperUse

mutual

/-- The uses of `super` in an expression that bind outside it. -/
def Expr.supers : Expr → List SuperUse
  | .superValue span => [{ span }]
  | .node _ _ parts => supersOfExprs parts
  | .assign _ _ left right => left.supers ++ right.supers
  | .arrow (.mk _ params body) => supersOfPatterns params ++ supersOfStmts body
  | .classLiteral literal => literal.supers
  | _ => []

def supersOfExprs : List Expr → List SuperUse
  | [] => []
  | value :: rest => value.supers ++ supersOfExprs rest

def Pattern.supers : Pattern → List SuperUse
  | .bind _ | .hole => []
  | .object fields => supersOfPatterns fields
  | .field _ keyParts value => supersOfExprs keyParts ++ value.supers
  | .array elements => supersOfPatterns elements
  | .rest pattern => pattern.supers
  | .slot decorators pattern initial => supersOfExprs decorators ++ pattern.supers ++ supersOfExprs initial

def supersOfPatterns : List Pattern → List SuperUse
  | [] => []
  | pattern :: others => pattern.supers ++ supersOfPatterns others

/-- A class: its decorators, its base, and the decorators and keys of its members. -/
def ClassLiteral.supers : ClassLiteral → List SuperUse
  | .mk _ decorators base members =>
    (supersOfExprs decorators ++ supersOfExprs base ++ supersOfMembers members).map SuperUse.inHead

def supersOfMembers : List Member → List SuperUse
  | [] => []
  | .method _ _ decorators _ keyParts _ _ :: rest =>
    supersOfExprs decorators ++ supersOfExprs keyParts ++ supersOfMembers rest
  | .field decorators _ keyParts _ _ :: rest =>
    supersOfExprs decorators ++ supersOfExprs keyParts ++ supersOfMembers rest
  | _ :: rest => supersOfMembers rest

def Stmt.supers : Stmt → List SuperUse
  | .expression value _ => value.supers
  | .block body _ => supersOfStmts body
  | .variableDecl _ slots _ => supersOfPatterns slots
  | .classDecl literal => literal.supers
  | .returns value _ => supersOfExprs value
  | .loop parts _ => supersOfStmts parts
  | .compound parts _ => supersOfStmts parts
  | .case test body _ => supersOfExprs test ++ supersOfStmts body
  | .handler pattern body _ => supersOfPatterns pattern ++ body.supers
  | .exportDeclaration declaration _ => declaration.supers
  | .exportDefault value _ => value.supers
  | .enumeration _ initials _ => supersOfExprs initials
  | .typeOnly body _ | .ambient body _ => supersOfStmts body
  | _ => []

def supersOfStmts : List Stmt → List SuperUse
  | [] => []
  | statement :: rest => statement.supers ++ supersOfStmts rest

end

def anyInBody (uses : List SuperUse) : Bool := uses.any (·.zone == .body)

@[simp] lemma anyInBody_nil : anyInBody [] = false := rfl

@[simp] lemma anyInBody_append (first second : List SuperUse) :
    anyInBody (first ++ second) = (anyInBody first || anyInBody second) := List.any_append

lemma ClassLiteral.anyInBody_supers (literal : ClassLiteral) : anyInBody literal.supers = false := by
  cases literal
  simp [supers,anyInBody,SuperUse.inHead]

/-! What the walk looks for is just that. -/

mutual

lemma Expr.mentionsSuper_eq (value : Expr) : value.mentionsSuper = anyInBody value.supers := by
  rw [Expr.mentionsSuper.eq_def,Expr.supers.eq_def]
  cases value with
  | superValue span => rfl
  | node shape span parts => simp [usesSuperAll_eq parts]
  | assign plain span left right => simp [left.mentionsSuper_eq,right.mentionsSuper_eq]
  | arrow literal =>
    obtain ⟨head,params,body⟩ := literal
    simp [Func.paramsUseSuper,Func.bodyUsesSuper,patternsUseSuper_eq params,
      statementsUseSuper_eq body]
  | classLiteral literal => simp [literal.anyInBody_supers]
  | _ => rfl

lemma usesSuperAll_eq (values : List Expr) : usesSuperAll values = anyInBody (supersOfExprs values) := by
  cases values with
  | nil => rfl
  | cons value rest => simp [usesSuperAll,supersOfExprs,value.mentionsSuper_eq,usesSuperAll_eq rest]

lemma Pattern.mentionsSuper_eq (pattern : Pattern) : pattern.mentionsSuper = anyInBody pattern.supers := by
  rw [Pattern.mentionsSuper.eq_def,Pattern.supers.eq_def]
  cases pattern with
  | bind id => rfl
  | hole => rfl
  | object fields => simp [patternsUseSuper_eq fields]
  | field key keyParts value =>
    simp [usesSuperAll_eq keyParts,value.mentionsSuper_eq]
  | array elements => simp [patternsUseSuper_eq elements]
  | rest pattern => simp [pattern.mentionsSuper_eq]
  | slot decorators pattern initial =>
    simp [usesSuperAll_eq decorators,pattern.mentionsSuper_eq,
      usesSuperAll_eq initial,Bool.or_assoc]

lemma patternsUseSuper_eq (patterns : List Pattern) :
    patternsUseSuper patterns = anyInBody (supersOfPatterns patterns) := by
  cases patterns with
  | nil => rfl
  | cons pattern others => simp [patternsUseSuper,supersOfPatterns,pattern.mentionsSuper_eq,patternsUseSuper_eq others]

lemma Stmt.mentionsSuper_eq (statement : Stmt) : statement.mentionsSuper = anyInBody statement.supers := by
  rw [Stmt.mentionsSuper.eq_def,Stmt.supers.eq_def]
  cases statement with
  | expression value span | exportDefault value span => simp [value.mentionsSuper_eq]
  | block body span | typeOnly body span | ambient body span => simp [statementsUseSuper_eq body]
  | variableDecl kind slots span => simp [patternsUseSuper_eq slots]
  | classDecl literal => simp [literal.anyInBody_supers]
  | returns value span => simp [usesSuperAll_eq value]
  | enumeration id initials span => simp [usesSuperAll_eq initials]
  | loop parts span | compound parts span => simp [statementsUseSuper_eq parts]
  | case test body span => simp [usesSuperAll_eq test,statementsUseSuper_eq body]
  | handler pattern body span => simp [patternsUseSuper_eq pattern,body.mentionsSuper_eq]
  | exportDeclaration declaration span => simp [declaration.mentionsSuper_eq]
  | _ => rfl

lemma statementsUseSuper_eq (statements : List Stmt) :
    statementsUseSuper statements = anyInBody (supersOfStmts statements) := by
  cases statements with
  | nil => rfl
  | cons statement rest => simp [statementsUseSuper,supersOfStmts,statement.mentionsSuper_eq,statementsUseSuper_eq rest]

end
end Script

open Script

def Construct.supers : Construct → List SuperUse
  | .function (.mk _ params body) | .arrow (.mk _ params body) =>
    (supersOfPatterns params).map SuperUse.inParams ++ supersOfStmts body
  | .classLiteral literal => literal.supers
  | _ => []

def Construct.literal? : Construct → Option (LiteralKind × Span)
  | .function literal => some (.function, literal.head.span)
  | .arrow literal => some (.arrow, literal.head.span)
  | .classLiteral literal => some (.classLiteral, literal.head.span)
  | _ => none

lemma Construct.literal?_of_makes (makes : construct.makes candidate) :
    construct.literal? = some (candidate.kind, candidate.span) := by
  cases construct with
  | function literal | arrow literal =>
    obtain ⟨rfl,-⟩ := makes
    rfl
  | classLiteral literal =>
    obtain rfl := makes
    rfl
  | _ => cases makes

lemma Construct.anyInBody_supers (makes : construct.makes candidate) : anyInBody construct.supers = false := by
  have params (uses : List SuperUse) : anyInBody (uses.map SuperUse.inParams) = false := by
    simp only [anyInBody,List.any_map,List.any_eq_false]
    intro use _
    simp only [Function.comp_apply,SuperUse.inParams]
    split <;> simp_all
  cases construct with
  | function literal | arrow literal =>
    obtain ⟨head,given,body⟩ := literal
    have unused : statementsUseSuper body = false := makes.2
    simp [supers,params,← statementsUseSuper_eq,unused]
  | classLiteral literal => exact literal.anyInBody_supers
  | _ => cases makes

lemma Construct.isOffered_of_supers (stands : construct.literal? = some (kind, span)) (other : kind ≠ .function)
    (unused : ∀ use ∈ construct.supers, use.zone ≠ .body) : construct.isOffered = true := by
  cases construct with
  | arrow literal =>
    obtain ⟨head,params,body⟩ := literal
    have inner : anyInBody (supersOfStmts body) = false := by
      simp only [anyInBody,List.any_eq_false,beq_iff_eq]
      exact fun use listed => unused use (List.mem_append_right _ listed)
    simp [isOffered,Func.bodyUsesSuper,statementsUseSuper_eq,inner]
  | classLiteral => rfl
  | function => exact absurd (congrArg Prod.fst (Option.some.inj stands)).symm other
  | _ => cases stands

/-- Every closure is a literal of the program whose uses of `super` that bind outside it stand in its
parameters or in the head of a class. If every name is selected, each arrow function whose body has no such use and
each class is one, whatever else it uses: its parameters, its head and private names are not looked at. -/
theorem closure_body_binds_super (setting : Selecting) (program : Program) :
    let tree := (analyze setting program).tree.bindAll
    (∀ id closure, tree.closure? id = some closure →
      ∃ opening, program.outline.openings[closure.scope]? = some opening ∧
        opening.construct.literal? = some (closure.kind, closure.span) ∧
        ∀ use ∈ opening.construct.supers, use.zone = .parameters ∨ use.zone = .classHead) ∧
    ((∀ name, setting.selects name = true) → ∀ s opening kind span,
      program.outline.openings[s]? = some opening → opening.construct.literal? = some (kind, span) →
      kind ≠ .function → (∀ use ∈ opening.construct.supers, use.zone ≠ .body) →
      ∃ id closure, tree.closure? id = some closure ∧ closure.scope = s ∧ closure.kind = kind ∧ closure.span = span) := by
  intro tree
  obtain ⟨walked, trace, is⟩ := analyze_traces setting program
  have bare := Scoping.bindAll_bare (analyze setting program).tree
  have stands (id : ClosureIndex) (closure : Closure) (found : tree.closure? id = some closure) :
      ∃ opening candidate, program.outline.openings[closure.scope]? = some opening ∧
        opening.construct.makes candidate ∧ opening.construct.literal? = some (closure.kind, closure.span) := by
    obtain ⟨before, entry, equal⟩ := Scoping.closure?_of_bare_eq bare found
    have listed : before ∈ walked.tree.closures := is ▸ List.mem_of_getElem? entry
    obtain ⟨opening, candidate, opened, makes, span, kind⟩ :=
      (trace.closures (linked_start _) rfl listed).resolve_left nofun
    refine ⟨opening, candidate, ?_, makes, ?_⟩
    · rw [show closure.scope = before.scope from (congrArg Closure.scope equal :)]
      exact opened
    · rw [show closure.kind = before.kind from (congrArg Closure.kind equal :),
        show closure.span = before.span from (congrArg Closure.span equal :), span, kind]
      exact Construct.literal?_of_makes makes
  refine ⟨fun id closure found => ?_, fun every s opening kind span opened literal other unused => ?_⟩
  · obtain ⟨opening, candidate, opened, makes, literal⟩ := stands id closure found
    refine ⟨opening, opened, literal, fun use mem => ?_⟩
    have outside := List.any_eq_false.1 (Construct.anyInBody_supers makes) use mem
    cases zone : use.zone with
    | parameters => exact .inl rfl
    | classHead => exact .inr rfl
    | body => exact absurd (by rw [zone]; rfl) outside
  · have offered := Construct.isOffered_of_supers literal other unused
    rcases trace.offered rfl every offered opened with old | ⟨before, listed, own⟩
    · obtain ⟨-, rfl⟩ : s = 0 ∧ opening = ⟨.program, none⟩ := by
        cases s with
        | zero => exact ⟨rfl, (Option.some.inj old).symm⟩
        | succ s => cases old
      cases literal
    · rw [is] at listed
      obtain ⟨id, entry⟩ := List.mem_iff_getElem?.1 listed
      obtain ⟨closure, found, equal⟩ := Scoping.closure?_of_bare_eq bare.symm entry
      have same : closure.scope = s := ((congrArg Closure.scope equal :).symm.trans own :)
      obtain ⟨_, _, opened', _, literal'⟩ := stands id closure found
      rw [same] at opened'
      cases opened.symm.trans opened'
      obtain ⟨rfl, rfl⟩ := Prod.mk.inj (Option.some.inj (literal.symm.trans literal'))
      exact ⟨id, closure, found, same, rfl, rfl⟩

/-- `class A extends B { m() { return (x = super.y) => x; } }` -/
def superInDefault : Program where
  span := ⟨0,56⟩
  body := [.classDecl (.mk { span := ⟨0,56⟩, name := some ⟨"A",⟨6,7⟩⟩ } [] [.name ⟨"B",⟨16,17⟩⟩]
    [.method .method false [] (.name ⟨"m",⟨20,21⟩⟩) [] (.mk { span := ⟨21,54⟩, paramsStart := 21 } []
        [.returns [.arrow (.mk { span := ⟨33,51⟩, paramsStart := 33 }
          [.slot [] (.bind ⟨"x",⟨34,35⟩⟩) [.node (.member ⟨"y",⟨44,45⟩⟩) ⟨38,45⟩ [.superValue ⟨38,43⟩]]]
          [.returns [.name ⟨"x",⟨50,51⟩⟩] ⟨50,51⟩])] ⟨26,52⟩]) ⟨20,54⟩])]

/-- `() => this.#x` -/
def readsPrivate : Func := .mk { span := ⟨27,40⟩, paramsStart := 27 } []
  [.expression (.node (.privateMember ⟨"x",⟨38,40⟩⟩) ⟨33,40⟩ [.thisValue ⟨33,37⟩]) ⟨33,40⟩]

/-- `class A { #x; m() { return () => this.#x; } }` -/
def privateInArrow : Program where
  span := ⟨0,45⟩
  body := [.classDecl (.mk { span := ⟨0,45⟩, name := some ⟨"A",⟨6,7⟩⟩ } [] []
    [.field [] (.privateName ⟨"x",⟨10,12⟩⟩) [] [] ⟨10,13⟩,
     .method .method false [] (.name ⟨"m",⟨14,15⟩⟩) [] (.mk { span := ⟨15,43⟩, paramsStart := 15 } []
        [.returns [.arrow readsPrivate] ⟨20,41⟩]) ⟨14,43⟩])]

/-- One arrow function is taken out with a `super` in its parameters that binds outside it, the other one with a
private name that the class around it declares. -/
theorem superInDefault_is_lifted :
    let setting : Selecting := { source := [], selects := fun _ => true }
    (∃ closure ∈ (analyze setting superInDefault).tree.bindAll.closures, closure.isLifted = true ∧
      (superInDefault.outline.openings[closure.scope]?).map (fun opening => opening.construct.supers) =
        some [⟨⟨38, 43⟩, .parameters⟩]) ∧
    (analyze setting privateInArrow).tree.bindAll.closures.map (fun closure =>
      (closure.kind, closure.scope, closure.isLifted)) =
        [(.classLiteral, 1, false), (.function, 2, true), (.arrow, 3, true)] ∧
    (privateInArrow.outline.openings[3]?).map (fun opening => opening.construct) = some (.arrow readsPrivate) := by
  refine ⟨by decide +kernel, by decide +kernel, rfl⟩

theorem superInDefault_binds_in_params :
    let setting : Selecting := { source := [], selects := fun _ => true }
    ∃ id closure, (analyze setting superInDefault).tree.bindAll.closure? id = some closure ∧
      closure.scope = 3 ∧ closure.kind = .arrow ∧ closure.span = ⟨33, 51⟩ ∧
      ∃ opening, superInDefault.outline.openings[closure.scope]? = some opening ∧
        opening.construct.literal? = some (closure.kind, closure.span) ∧
        ∀ use ∈ opening.construct.supers, use.zone = .parameters ∨ use.zone = .classHead := by
  intro setting
  have arrow : (superInDefault.outline.openings[3]?).map (fun opening =>
      (opening.construct.literal?, opening.construct.supers)) =
      some (some (.arrow, ⟨33, 51⟩), [⟨⟨38, 43⟩, .parameters⟩]) := by decide +kernel
  obtain ⟨opening, opened, facts⟩ := Option.map_eq_some_iff.1 arrow
  obtain ⟨literal, supers⟩ := Prod.mk.inj facts
  obtain ⟨all, taken⟩ := closure_body_binds_super setting superInDefault
  obtain ⟨id, closure, found, own, kind, span⟩ :=
    taken (fun _ => rfl) 3 opening .arrow ⟨33, 51⟩ opened literal (by decide) (by simp [supers])
  exact ⟨id, closure, found, own, kind, span, all id closure found⟩

end Resumable
