import Mathlib.Tactic.Lemma
import Resumable.Proofs.Parts

/-! What the walk over a program can do. `Walk` lists the moves: declare a name, record a reference, list an import
or an export, enter a list of statements, and open a scope, perhaps make a closure of its literal, and close it
again. A guard says which parts of the code each move may be about, and every function of the walk keeps to the
parts of what it walks over. -/
namespace Resumable
open Script
variable {site : Site}

/-! ### Spans that nest -/

/-- Whether a literal of a form stands where the form says: a declaration is its own statement, a
method comes after its key and ends with its member. -/
def ClosureForm.admits (form : ClosureForm) (literal : Span) : Bool :=
  match form with
  | .declaration _ _ statement => statement == literal
  | .objectMethod member key _ | .classMethod member key _ _ => key.stop ≤ literal.start && literal.stop ≤ member.stop
  | _ => true

/-- Whether a part of an expression stands within it, and the value of a method after its key. -/
def Script.Shape.admits (shape : Shape) (span : Span) (part : Span) : Bool :=
  match shape with
  | .group => span.start ≤ part.start && part.stop ≤ span.stop
  | .property .method key => key.span.stop ≤ part.start && part.stop ≤ span.stop
  | _ => true

namespace Script

def Span.holdsText (span : Span) : Bool := span.start < span.stop

mutual

/-- Whether spans are nested as the tree is, and those of names and literals are not empty. -/
def Expr.nests : Expr → Bool
  | .name id | .target id | .tag id => id.span.holdsText
  | .node shape span parts => partsNest shape span parts
  | .assign _ _ left right => left.nests && right.nests
  | .function literal | .arrow literal => literal.nests
  | .classLiteral literal => literal.nests
  | _ => true

/-- Only the last part has bounds: before the value of a property there may be its key. -/
def partsNest (shape : Shape) (span : Span) : List Expr → Bool
  | [] => true
  | part :: rest => part.nests && (!rest.isEmpty || shape.admits span part.span) && partsNest shape span rest

def exprsNest : List Expr → Bool
  | [] => true
  | value :: rest => value.nests && exprsNest rest

def Pattern.nests : Pattern → Bool
  | .bind _ | .hole => true
  | .object fields => patternsNest fields
  | .field _ keyParts value => exprsNest keyParts && value.nests
  | .array elements => patternsNest elements
  | .rest pattern => pattern.nests
  | .slot decorators pattern initial => exprsNest decorators && pattern.nests && exprsNest initial

def patternsNest : List Pattern → Bool
  | [] => true
  | pattern :: others => pattern.nests && patternsNest others

def Func.nests : Func → Bool
  | .mk head params body => head.span.holdsText && patternsNest params && statementsNest body

def ClassLiteral.nests : ClassLiteral → Bool
  | .mk head decorators base members =>
    head.span.holdsText && exprsNest decorators && exprsNest base && membersNest members

def Member.nests : Member → Bool
  | .method _ _ decorators key keyParts literal span =>
    exprsNest decorators && exprsNest keyParts && literal.nests &&
      key.span.stop ≤ literal.head.span.start && literal.head.span.stop ≤ span.stop
  | .field _ _ keyParts initial _ => exprsNest keyParts && exprsNest initial
  | .block body _ => statementsNest body
  | .signature => true

def membersNest : List Member → Bool
  | [] => true
  | member :: rest => member.nests && membersNest rest

def Stmt.nests : Stmt → Bool
  | .expression value _ => value.nests
  | .block body _ => statementsNest body
  | .variableDecl _ slots _ => patternsNest slots
  | .function literal => literal.nests
  | .classDecl literal => literal.nests
  | .returns value _ => exprsNest value
  | .loop parts _ => statementsNest parts
  | .compound parts _ => statementsNest parts
  | .case test body _ => exprsNest test && statementsNest body
  | .handler pattern body _ => patternsNest pattern && body.nests
  | .exportNames locals _ _ => locals.all fun id => id.span.holdsText
  | .exportDeclaration declaration _ => declaration.nests
  | .exportDefault value _ => value.nests
  | .enumeration _ initials _ => exprsNest initials
  | .typeOnly body _ | .ambient body _ => statementsNest body
  | _ => true

def statementsNest : List Stmt → Bool
  | [] => true
  | statement :: rest => statement.nests && statementsNest rest

end
end Script

/-! ### Guards -/

structure Guard where
  admits : Part → Prop
  /-- What may be declared at the top level, as part of an export or not, under which name. -/
  declares : Bool → Span → Option String → Prop
  lists : String → Prop

section
variable {guard : Guard}

namespace Guard

/-- Whether the name of a literal that may become a closure is admitted. -/
def AdmitsOwn (guard : Guard) (candidate : Candidate) : Prop :=
  ∀ own, candidate.ownName = some own → guard.admits (.binding own)

/-- What a closure may be made of, inside some lists of statements. -/
def Makes (guard : Guard) (lists : List (List Nat)) (site : Site) (candidate : Candidate) : Prop :=
  guard.AdmitsOwn candidate ∧
  match site.context with
  | .declaration true exported statement => guard.declares exported statement candidate.ownName
  | .declaration false _ statement => site.name = none ∧
    ∃ inList, guard.admits (.declaration inList (lists.head?.getD []) candidate.ownName statement)
  | _ => True

lemma makes_of_loose {lists : List (List Nat)} {candidate : Candidate} (loose : site.context.isDeclaration = false)
    (own : guard.AdmitsOwn candidate) : guard.Makes lists site candidate := by
  refine ⟨own,?_⟩
  cases context : site.context with
  | declaration => simp [context,ClosureForm.isDeclaration] at loose
  | _ => trivial

lemma admitsOwn {candidate : Candidate} {id : Option Ident} (is : candidate.ownName = declaredName id)
    (parts : ∀ part ∈ Ident.bindings id.toList, guard.admits part) : guard.AdmitsOwn candidate := by
  intro own named
  obtain ⟨id,rfl,rfl⟩ := Option.map_eq_some_iff.1 (is.symm.trans named)
  exact parts _ (List.mem_singleton_self _)

/-- What may be declared by a top-level statement, or as part of an export. -/
def Declares (guard : Guard) (exported : Bool) : Stmt → Prop
  | .function literal => literal.head.hasBody = true →
    guard.declares exported literal.head.span (declaredName literal.head.name)
  | .classDecl literal => literal.head.isAmbient = false →
    guard.declares exported literal.head.span (declaredName literal.head.name)
  | _ => True

/-- What may be done with a top-level statement beyond that. -/
def Permits (guard : Guard) (level : Level) (statement : Stmt) : Prop :=
  match level with
  | .top =>
    match statement with
    | .exportNames locals _ _ => ∀ id ∈ locals, guard.lists id.name
    | .exportDeclaration declaration _ => guard.Declares true declaration
    | other => guard.Declares false other
  | .exported => guard.Declares true statement
  | .nested | .loose => True

lemma permits_nested (guard : Guard) (statements : List Stmt) :
    ∀ statement ∈ statements, guard.Permits .nested statement :=
  fun _ _ => trivial

/-- Code whose spans are nested, if `nests` holds, and whose parts a guard admits. -/
structure Covers (guard : Guard) (nests : Prop) (inner : Bool) (code : List Part) : Prop where
  nested : nests → inner = true
  parts : ∀ part ∈ code, guard.admits part

namespace Covers

variable {inner : Bool}

lemma one (covers : guard.Covers nests inner [part]) : guard.admits part :=
  covers.parts part (List.mem_singleton_self part)

section
variable (covers : guard.Covers nests inner (first ++ second))
include covers

lemma front : ∀ part ∈ first, guard.admits part :=
  (List.forall_mem_append.1 covers.parts).1

lemma rest : guard.Covers nests inner second :=
  ⟨covers.nested,(List.forall_mem_append.1 covers.parts).2⟩

end

lemma within (covers : guard.Covers nests (outer && inner) code) :
    (nests → outer = true) ∧ guard.Covers nests inner code := by
  have ⟨around,nested⟩ := imp_and.1 fun nest => Bool.and_eq_true_iff.1 (covers.nested nest)
  exact ⟨around,nested,covers.parts⟩

lemma append (covers : guard.Covers nests (left && right) (first ++ second)) :
    guard.Covers nests left first ∧ guard.Covers nests right second :=
  ⟨⟨covers.within.1,covers.front⟩,covers.within.2.rest⟩

lemma append₃ (covers : guard.Covers nests (left && middle && right) (first ++ (second ++ third))) :
    guard.Covers nests left first ∧ guard.Covers nests middle second ∧ guard.Covers nests right third := by
  have ⟨both,last⟩ := covers.within
  have ⟨one,two⟩ := Covers.append ⟨both,(List.forall_mem_append.2 ⟨covers.front,covers.rest.front⟩)⟩
  exact ⟨one,two,last.rest.rest⟩

end Covers
end Guard

namespace Builder

variable {builder : Builder}

lemma recordName_cases (position : Position) (id : Ident) :
    (builder.recordName position id = builder.record (.identifier id.name) position id.span ∧
      (id.name = "arguments" → (builder.tree.resolve builder.current id.name).isSome ∨
        builder.tree.ownerOfArguments builder.current = none)) ∨
    ∃ owner, builder.recordName position id = builder.record (.arguments owner) position id.span ∧
      id.name = "arguments" ∧ builder.tree.ownerOfArguments builder.current = some owner := by
  simp only [recordName]
  by_cases free : (id.name == "arguments" && (builder.tree.resolve builder.current id.name).isNone) = true
  · rw [if_pos free]
    simp only [Bool.and_eq_true,beq_iff_eq] at free
    cases owned : builder.tree.ownerOfArguments builder.current with
    | none => exact .inl ⟨rfl,fun _ => .inr rfl⟩
    | some owner => exact .inr ⟨owner,rfl,free.1,rfl⟩
  · rw [if_neg free]
    simp only [Bool.and_eq_true,beq_iff_eq,not_and,Option.isNone_iff_eq_none] at free
    exact .inl ⟨rfl,fun named => .inl (Option.isSome_iff_ne_none.2 (free named))⟩

lemma recordName_eq (position : Position) (id : Ident) :
    ∃ mention : Mention, builder.recordName position id = builder.record mention position id.span ∧
      (mention = .identifier id.name ∨ ∃ owner, mention = .arguments owner) := by
  rcases recordName_cases position id with ⟨equal,-⟩ | ⟨owner,equal,-⟩
  · exact ⟨_,equal,.inl rfl⟩
  · exact ⟨_,equal,.inr ⟨owner,rfl⟩⟩

end Builder

/-! ### Moves -/

/-- What the walk may ask of a site. If `nests` holds, a literal there stands where the site says. -/
structure Site.Fits (nests : Prop) (site : Site) (literal : Span) : Prop where
  /-- What is bound under its own name gets no other one. -/
  unnamed : site.context.introducesItself = true → site.name = none
  placed : nests → site.context.admits literal = true

/-- What the walk may ask of a literal that may become a closure. -/
structure Site.Suits (nests : Prop) (guard : Guard) (lists : List (List Nat)) (site : Site)
    (candidate : Candidate) : Prop extends site.Fits nests candidate.span where
  visible : nests → candidate.span.holdsText = true
  makes : guard.Makes lists site candidate

/-- The moves of a walk that keeps to a guard. Spans are bound to the tree only if `nests` holds. -/
inductive Walk (setting : Selecting) (nests : Prop) (guard : Guard) : Builder → Builder → Prop where
  | done {builder} : Walk setting nests guard builder builder
  | andThen {first second third} : Walk setting nests guard first second → Walk setting nests guard second third →
      Walk setting nests guard first third
  | declares {builder} (scope : ScopeIndex) (name : String) (allowed : guard.admits (.binding name)) :
    Walk setting nests guard builder (builder.declareIn scope name)
  | records {builder} (mention : Mention) (position : Position) (span : Span)
      (visible : nests → ∀ name, mention = .identifier name → span.holdsText = true) :
    Walk setting nests guard builder (builder.record mention position span)
  | imports {builder} (id : Ident) (allowed : guard.admits (.binding id.name)) :
    Walk setting nests guard builder (builder.addImport id)
  | exports {builder} (id : Ident) (allowed : guard.lists id.name) :
    Walk setting nests guard builder (builder.exportName id)
  | list {builder} {walk : Builder → Builder} (starts : List Nat) :
    Walk setting nests guard { builder with lists := starts :: builder.lists }
      (walk { builder with lists := starts :: builder.lists }) →
      Walk setting nests guard builder (builder.withList starts walk)
  | nested {builder inside : Builder} (kind : ScopeRole) (owner : Span) :
    Walk setting nests guard (builder.push kind owner) inside → Walk setting nests guard builder inside.pop
  /-- A scope whose literal may become a closure: a function at once, a class after some of its
  parts. -/
  | closure {builder before after : Builder} (kind : ScopeRole) (owner : Span) (site : Site)
      (candidate : Candidate) (suits : site.Suits nests guard builder.lists candidate)
      (first : candidate.kind ≠ .classLiteral → before = builder.push kind owner) :
    Walk setting nests guard (builder.push kind owner) before →
      Walk setting nests guard (register setting site candidate builder.current before).2 after →
      Walk setting nests guard builder after.pop

lemma register_lists (site : Site) (candidate : Candidate) (parent : ScopeIndex) :
    (register setting site candidate parent builder).2.lists = builder.lists := by
  simp only [register]
  split <;> rfl

namespace Walk

variable {setting : Selecting} {nests : Prop} {builder : Builder}

lemma lists (walk : Walk setting nests guard builder later) : later.lists = builder.lists := by
  induction walk with
  | done | declares | records | imports | list => rfl
  | andThen _ _ one two => exact two.trans one
  | exports id =>
    unfold Builder.exportName
    split <;> rfl
  | nested _ _ _ ih => exact ih
  | closure _ _ site candidate _ _ _ _ one two => exact two.trans ((register_lists ..).trans one)

lemma name (position : Position) (id : Ident) (visible : nests → id.span.holdsText = true) :
    Walk setting nests guard builder (builder.recordName position id) := by
  obtain ⟨mention,equal,-⟩ := @Builder.recordName_eq builder position id
  exact equal ▸ .records _ _ _ fun nest _ _ => visible nest

lemma foldl {α : Type} {step : Builder → α → Builder} {values : List α}
    (steps : ∀ value ∈ values, ∀ builder, Walk setting nests guard builder (step builder value))
    (builder : Builder) : Walk setting nests guard builder (values.foldl step builder) := by
  induction values generalizing builder with
  | nil => exact .done
  | cons value rest ih =>
    exact .andThen (steps value List.mem_cons_self builder)
      (ih (fun other member => steps other (List.mem_cons_of_mem _ member)) _)

lemma declareOwn (scope : ScopeIndex) {id : Option Ident}
    (allowed : ∀ part ∈ Ident.bindings id.toList, guard.admits part) :
    Walk setting nests guard builder (builder.declareOwn scope id) := by
  cases id with
  | none => exact .done
  | some id => exact .declares scope id.name (allowed _ (List.mem_singleton_self _))

lemma declareAll (scope : ScopeIndex) (ids : List Ident) (allowed : ∀ part ∈ Ident.bindings ids, guard.admits part) :
    Walk setting nests guard builder (builder.declareAll scope ids) :=
  foldl (fun id listed _ => .declares scope id.name (allowed _ (List.mem_map_of_mem listed))) builder

lemma declareFunctionName (site : Site) (registered : Bool) (parent : ScopeIndex)
    (allowed : ∀ part ∈ Ident.bindings head.name.toList, guard.admits part) :
    Walk setting nests guard builder (declareFunctionName site registered parent head builder) := by
  unfold Resumable.declareFunctionName
  split
  · split
    · exact .done
    · exact declareOwn parent allowed
  · exact declareOwn builder.current allowed

lemma body {body : List Stmt} (given : ∀ part ∈ Ident.bindings (Params.names params), guard.admits part)
    (patterns : ∀ {builder}, Walk setting nests guard builder (walkPatterns setting params builder))
    (statements : ∀ {builder : Builder}, builder.lists.head?.getD [] = starts body →
      Walk setting nests guard builder (walkStmts setting .nested body builder)) (entered : Builder) :
    Walk setting nests guard entered ((walkPatterns setting params
      (entered.declareAll entered.current (Params.names params))).withList (starts body)
        (walkStmts setting .nested body)) :=
  .andThen (declareAll entered.current _ given) (.andThen patterns (.list _ (statements rfl)))

end Walk

/-! ### Sites -/

lemma Site.fits_of_expression (plain : site.context = .expression) : site.Fits nests literal :=
  ⟨by simp [plain,ClosureForm.introducesItself],by simp [plain,ClosureForm.admits]⟩

lemma initialSite_context (pattern : Pattern) : (initialSite pattern).context = .expression := by cases pattern <;> rfl

lemma declarationSite_fits (nests : Prop) (level : Level) (span : Span) :
    (declarationSite level span).Fits nests span := by
  cases level <;> exact ⟨by simp [declarationSite],by simp [declarationSite,ClosureForm.admits]⟩

lemma partSite_isDeclaration (loose : site.context.isDeclaration = false) (shape : Shape) (span : Span)
    (before after : Nat) :
    (partSite site shape span before after).context.isDeclaration = false := by
  unfold partSite
  split <;> first | exact loose | rfl | (unfold propertySite; split <;> rfl)

lemma propertySite_fits (kind : PropertyKind) (key : Key) (span part : Span)
    (placed : nests → (Shape.property kind key).admits span part = true) :
    (propertySite kind key span).Fits nests part := by
  cases kind with
  | method => exact ⟨by simp [propertySite,ClosureForm.introducesItself],placed⟩
  | shorthand | plain | accessor => exact Site.fits_of_expression rfl

lemma ClosureForm.admits_of_within {form : ClosureForm} (loose : form.isDeclaration = false)
    {outer inner : Span} (placed : form.admits outer = true) (start : outer.start ≤ inner.start)
    (stop : inner.stop ≤ outer.stop) : form.admits inner = true := by
  cases form with
  | declaration => cases loose
  | expression | defaultExport => rfl
  | objectMethod | classMethod =>
    simp only [ClosureForm.admits,Bool.and_eq_true,decide_eq_true_eq] at placed ⊢
    omega

lemma partSite_fits {nests : Prop} {shape : Shape} {span : Span} (fits : site.Fits nests span)
    (loose : site.context.isDeclaration = false) (before after : Nat) {part : Span}
    (placed : nests → after = 0 → shape.admits span part = true) :
    (partSite site shape span before after).Fits nests part := by
  unfold partSite
  split
  · -- a literal in parentheses keeps the site, and lies within what the site bounds
    refine ⟨fits.unnamed,fun nest => ?_⟩
    have within := placed nest rfl
    simp only [Shape.admits,Bool.and_eq_true,decide_eq_true_eq] at within
    exact ClosureForm.admits_of_within loose (fits.placed nest) within.1 within.2
  · exact Site.fits_of_expression rfl
  · exact Site.fits_of_expression rfl
  · exact propertySite_fits _ _ _ _ fun nest => placed nest rfl
  · exact propertySite_fits _ _ _ _ fun nest => placed nest rfl
  · exact Site.fits_of_expression rfl

/-- What a site gives to an expression that stands there. -/
structure Site.Serves (nests : Prop) (site : Site) (span : Span) : Prop where
  fits : site.Fits nests span
  loose : site.context.isDeclaration = false

lemma Site.serves_of_expression (plain : site.context = .expression) : site.Serves nests span :=
  ⟨fits_of_expression plain,by rw [plain]; rfl⟩

lemma Site.Serves.part (serves : site.Serves nests span) (before after : Nat)
    (placed : nests → after = 0 → shape.admits span literal = true) :
    (partSite site shape span before after).Serves nests literal :=
  ⟨partSite_fits serves.fits serves.loose before after placed,partSite_isDeclaration serves.loose ..⟩

/-! ### Every walk is made of moves -/

variable (setting : Selecting) {nests : Prop}

mutual

lemma walkExpr_moves (site : Site) (value : Expr) (serves : site.Serves nests value.span)
    (covers : guard.Covers nests value.nests value.parts) :
    Walk setting nests guard builder (walkExpr setting site value builder) := by
  cases value with
  | name id => exact .name _ id covers.nested
  | target id => exact .name .assigned id covers.nested
  | tag id => exact .name .tag id covers.nested
  | thisValue span => exact .records _ _ span nofun
  | node shape span inner => exact walkParts_moves site shape span 0 inner serves covers
  | assign plain span left right =>
    obtain ⟨one,two⟩ := covers.append
    exact .andThen (walkExpr_moves {} left (Site.serves_of_expression rfl) one)
      (walkExpr_moves {} right (Site.serves_of_expression rfl) two)
  | function literal =>
    exact walkFunction_moves site literal serves.fits (fun _ => Guard.makes_of_loose serves.loose) covers
  | arrow literal => exact walkArrow_moves site literal serves.fits (Guard.makes_of_loose serves.loose) covers
  | classLiteral literal =>
    exact walkClass_moves site literal serves.fits (fun _ => Guard.makes_of_loose serves.loose) covers
  | superValue | number | string | boolean | null | atom | hole => exact .done

lemma walkParts_moves (site : Site) (shape : Shape) (span : Span) (before : Nat) (parts : List Expr)
    (serves : site.Serves nests span) (covers : guard.Covers nests (partsNest shape span parts) (exprsParts parts)) :
    Walk setting nests guard builder (walkParts setting site shape span before parts builder) := by
  cases parts with
  | nil => exact .done
  | cons part rest =>
    obtain ⟨first,others⟩ := covers.append
    have ⟨inner,bounds⟩ := imp_and.1 fun nest => Bool.and_eq_true_iff.1 (first.nested nest)
    refine .andThen (walkExpr_moves _ part (serves.part before rest.length fun nest last => ?_) ⟨inner,first.parts⟩)
      (walkParts_moves site shape span (before + 1) rest serves others)
    have alone : rest = [] := List.length_eq_zero_iff.1 last
    simpa [alone] using bounds nest

lemma walkExprs_moves (values : List Expr) (covers : guard.Covers nests (exprsNest values) (exprsParts values)) :
    Walk setting nests guard builder (walkExprs setting values builder) := by
  cases values with
  | nil => exact .done
  | cons value rest =>
    obtain ⟨one,two⟩ := covers.append
    exact .andThen (walkExpr_moves {} value (Site.serves_of_expression rfl) one) (walkExprs_moves rest two)

lemma walkInitial_moves (site : Site) (context : site.context = .expression) (values : List Expr)
    (covers : guard.Covers nests (exprsNest values) (exprsParts values)) :
    Walk setting nests guard builder (walkInitial setting site values builder) := by
  cases values with
  | nil => exact .done
  | cons value rest =>
    obtain ⟨one,two⟩ := covers.append
    exact .andThen (walkExpr_moves site value (Site.serves_of_expression context) one)
      (walkInitial_moves site context rest two)

lemma walkPattern_moves (pattern : Pattern) (covers : guard.Covers nests pattern.nests pattern.parts) :
    Walk setting nests guard builder (walkPattern setting pattern builder) := by
  cases pattern with
  | bind | hole => exact .done
  | object fields => exact walkPatterns_moves fields covers
  | array elements => exact walkPatterns_moves elements covers
  | rest pattern => exact walkPattern_moves pattern covers
  | field key keyParts value =>
    obtain ⟨one,two⟩ := covers.append
    exact .andThen (walkExprs_moves keyParts one) (walkPattern_moves value two)
  | slot decorators pattern initial =>
    obtain ⟨above,named,given⟩ := covers.append₃
    exact .andThen (walkExprs_moves decorators above)
      (.andThen (walkPattern_moves pattern named) (walkExprs_moves initial given))

lemma walkPatterns_moves (patterns : List Pattern)
    (covers : guard.Covers nests (patternsNest patterns) (patternsParts patterns)) :
    Walk setting nests guard builder (walkPatterns setting patterns builder) := by
  cases patterns with
  | nil => exact .done
  | cons pattern others =>
    obtain ⟨one,two⟩ := covers.append
    exact .andThen (walkPattern_moves pattern one) (walkPatterns_moves others two)

lemma walkSlots_moves (slots : List Pattern) (covers : guard.Covers nests (patternsNest slots) (patternsParts slots)) :
    Walk setting nests guard builder (walkSlots setting slots builder) := by
  cases slots with
  | nil => exact .done
  | cons slot others =>
    obtain ⟨one,two⟩ := covers.append
    cases slot with
    | slot decorators pattern initial =>
      obtain ⟨above,named,given⟩ := one.append₃
      exact .andThen (walkExprs_moves decorators above)
        (.andThen (walkPattern_moves pattern named)
          (.andThen (walkInitial_moves _ (initialSite_context _) initial given) (walkSlots_moves others two)))
    | _ => exact .andThen (walkPattern_moves _ one) (walkSlots_moves others two)

lemma walkFunction_moves (site : Site) (literal : Func) (fits : site.Fits nests literal.head.span)
    (makes : literal.head.hasBody = true → guard.AdmitsOwn (functionCandidate .function literal.head) →
      guard.Makes builder.lists site (functionCandidate .function literal.head))
    (covers : guard.Covers nests literal.nests literal.parts) :
    Walk setting nests guard builder (walkFunction setting site literal builder) := by
  obtain ⟨head,params,body⟩ := literal
  have own := covers.front
  have given := covers.rest.front
  obtain ⟨within,code⟩ := covers.rest.rest.append
  obtain ⟨visible,within⟩ := within.within
  have inside := Walk.body given (walkPatterns_moves params within)
    (walkStmts_moves .nested true body · (guard.permits_nested _) code)
  have named := fun registered (entered : Builder) =>
    Walk.andThen (Walk.declareFunctionName site registered builder.current own)
      (inside (declareFunctionName site registered builder.current head entered))
  simp only [walkFunction]
  split
  · split
    · exact Walk.declareOwn _ own
    · exact .done
  · rename_i noSignature
    have makes := makes (by simpa [Func.head] using noSignature) (Guard.admitsOwn rfl own)
    split
    · exact .closure site.role head.span site _ ⟨fits,visible,makes⟩ (fun _ => rfl) .done (named _ _)
    · exact .nested site.role head.span (named false _)

lemma walkArrow_moves (site : Site) (literal : Func) (fits : site.Fits nests literal.head.span)
    (makes : guard.AdmitsOwn (functionCandidate .arrow literal.head) →
      guard.Makes builder.lists site (functionCandidate .arrow literal.head))
    (covers : guard.Covers nests literal.nests literal.parts) :
    Walk setting nests guard builder (walkArrow setting site literal builder) := by
  obtain ⟨head,params,body⟩ := literal
  have given := covers.rest.front
  obtain ⟨within,code⟩ := covers.rest.rest.append
  obtain ⟨visible,within⟩ := within.within
  have inside := Walk.body given (walkPatterns_moves params within)
    (walkStmts_moves .nested true body · (guard.permits_nested _) code)
  simp only [walkArrow]
  split
  · exact .nested .arrow head.span (inside _)
  · exact .closure .arrow head.span site _ ⟨fits,visible,makes (Guard.admitsOwn rfl covers.front)⟩ (fun _ => rfl) .done
      (inside _)

lemma walkClass_moves (site : Site) (literal : ClassLiteral) (fits : site.Fits nests literal.head.span)
    (makes : literal.head.isAmbient = false → guard.AdmitsOwn (classCandidate literal.head) →
      guard.Makes builder.lists site (classCandidate literal.head))
    (covers : guard.Covers nests literal.nests literal.parts) :
    Walk setting nests guard builder (walkClass setting site literal builder) := by
  obtain ⟨head,decorators,base,members⟩ := literal
  have own := covers.front
  obtain ⟨above,extended,within⟩ := covers.rest.append₃
  obtain ⟨visible,above⟩ := above.within
  simp only [walkClass]
  split
  · split
    · exact Walk.declareOwn _ own
    · exact .done
  · rename_i defined
    have makes := makes (by simpa [ClassLiteral.head] using defined) (Guard.admitsOwn rfl own)
    refine .closure .classBody head.span site _ ⟨fits,visible,makes⟩ (fun other => absurd rfl other)
      (.andThen (walkExprs_moves decorators above)
        (walkExprs_moves base extended)) (.andThen ?_
          (.andThen (Walk.declareOwn _ own) (walkMembers_moves members within)))
    split
    · exact Walk.declareOwn _ own
    · exact .done

lemma walkMembers_moves (members : List Member)
    (covers : guard.Covers nests (membersNest members) (membersParts members)) :
    Walk setting nests guard builder (walkMembers setting members builder) := by
  cases members with
  | nil => exact .done
  | cons member rest =>
    obtain ⟨one,two⟩ := covers.append
    exact .andThen (walkMember_moves member one) (walkMembers_moves rest two)

lemma walkMember_moves (member : Member) (covers : guard.Covers nests member.nests member.parts) :
    Walk setting nests guard builder (walkMember setting member builder) := by
  cases member with
  | signature => exact .done
  | block body span =>
    exact .nested .classMember span (.list _ (walkStmts_moves .nested true body rfl (guard.permits_nested _) covers))
  | field decorators key keyParts initial span =>
    obtain ⟨one,two⟩ := covers.append
    simp only [walkMember]
    split
    · exact walkExprs_moves keyParts one
    · exact .andThen (walkExprs_moves keyParts one)
        (.nested .classMember span (walkInitial_moves _ rfl initial two))
  | method kind isStatic decorators key keyParts literal span =>
    obtain ⟨nested,parts⟩ := covers
    simp only [Member.nests,Bool.and_eq_true,imp_and,decide_eq_true_eq] at nested
    simp only [Member.parts,List.forall_mem_append] at parts
    obtain ⟨⟨⟨⟨above,named⟩,inner⟩,after⟩,before⟩ := nested
    obtain ⟨decorates,names,within⟩ := parts
    refine .andThen (walkExprs_moves decorators ⟨above,decorates⟩)
      (.andThen (walkExprs_moves keyParts ⟨named,names⟩)
        (walkFunction_moves _ literal ⟨by simp [ClosureForm.introducesItself],fun nest => ?_⟩
          (fun _ => Guard.makes_of_loose rfl) ⟨inner,within⟩))
    simp [ClosureForm.admits,memberSpan,after nest,before nest]

lemma walkStmts_moves (level : Level) (inList : Bool) (statements : List Stmt)
    (listed : builder.lists.head?.getD [] = around)
    (permits : ∀ statement ∈ statements, guard.Permits level statement)
    (covers : guard.Covers nests (statementsNest statements) (statementsParts level inList around statements)) :
    Walk setting nests guard builder (walkStmts setting level statements builder) := by
  cases statements with
  | nil => exact .done
  | cons statement rest =>
    obtain ⟨one,two⟩ := covers.append
    rw [List.forall_mem_cons] at permits
    have first := walkStmt_moves level inList statement listed permits.1 one
    exact .andThen first (walkStmts_moves level inList rest (first.lists ▸ listed) permits.2 two)

lemma walkStmt_moves (level : Level) (inList : Bool) {around : List Nat} (statement : Stmt)
    {builder : Builder} (listed : builder.lists.head?.getD [] = around)
    (permits : guard.Permits level statement)
    (covers : guard.Covers nests statement.nests (statement.parts level inList around)) :
    Walk setting nests guard builder (walkStmt setting level statement builder) := by
  cases statement with
  | expression value span => exact walkExpr_moves {} value (Site.serves_of_expression rfl) covers
  | block body span => exact .list _ (walkStmts_moves .nested true body rfl (guard.permits_nested _) covers)
  | variableDecl kind slots span =>
    exact .andThen (Walk.declareAll _ _ covers.front) (walkSlots_moves slots covers.rest)
  | function literal =>
    have front := covers.front
    refine walkFunction_moves _ literal (declarationSite_fits nests level _)
      (fun defines own => ⟨own,?_⟩) covers.rest
    cases level with
    | top => exact permits defines
    | exported => exact permits defines
    | nested => exact ⟨rfl,inList,listed ▸ front _ (List.mem_singleton_self _)⟩
    | loose => trivial
  | classDecl literal =>
    have front := covers.front
    refine walkClass_moves _ literal (declarationSite_fits nests level _)
      (fun defines own => ⟨own,?_⟩) covers.rest
    cases level with
    | top => exact permits defines
    | exported => exact permits defines
    | nested => exact ⟨rfl,inList,listed ▸ front _ (List.mem_singleton_self _)⟩
    | loose => trivial
  | returns value span => exact walkExprs_moves value covers
  | loop inner span =>
    exact .nested .loop span (walkStmts_moves .nested false inner listed (guard.permits_nested _) covers)
  | compound inner span => exact walkStmts_moves .nested false inner listed (guard.permits_nested _) covers
  | case test body span =>
    obtain ⟨one,two⟩ := covers.append
    exact .andThen (walkExprs_moves test one)
      (.list _ (walkStmts_moves .nested true body rfl (guard.permits_nested _) two))
  | handler pattern body span =>
    obtain ⟨one,two⟩ := covers.rest.append
    have first : Walk setting nests guard builder _ :=
      .andThen (Walk.declareAll builder.current _ covers.front) (walkPatterns_moves pattern one)
    exact .andThen first (walkStmt_moves .nested false body (first.lists ▸ listed) trivial two)
  | imports locals span =>
    exact Walk.foldl (fun id listed _ => .imports id (covers.parts _ (List.mem_map_of_mem listed))) builder
  | exportNames locals exported span =>
    refine .andThen ?_ (Walk.foldl (fun id listed _ => .name .plain id
      fun nest => List.all_eq_true.1 (covers.nested nest) id listed) _)
    split
    · rename_i top
      obtain rfl : level = .top := by simpa using top
      exact Walk.foldl (fun id listed _ => .exports id (permits id listed)) builder
    · exact .done
  | exportDeclaration declaration span =>
    obtain ⟨nested,parts⟩ := covers
    rw [Stmt.parts] at parts
    simp only [walkStmt]
    split
    · rename_i top
      obtain rfl : level = .top := by simpa using top
      exact walkStmt_moves .exported false declaration listed permits ⟨nested,parts⟩
    · rename_i below
      rw [if_neg below] at parts
      exact walkStmt_moves .loose false declaration listed trivial ⟨nested,parts⟩
  | exportDefault value span => exact walkDefault_moves span value covers
  | reexport exported span => exact .done
  | enumeration id initials span =>
    simp only [walkStmt,Stmt.parts] at covers ⊢
    split at covers
    · rw [if_pos ‹_›]
      exact walkExprs_moves initials covers
    · rw [if_neg ‹_›]
      exact .declares _ _ covers.one
  | typeOnly body span =>
    simp only [walkStmt,Stmt.parts] at covers ⊢
    split at covers
    · rw [if_pos ‹_›]
      exact .list _ (walkStmts_moves .nested true body rfl (guard.permits_nested _) covers)
    · rw [if_neg ‹_›]
      exact .done
  | ambient body span =>
    simp only [walkStmt]
    split
    · exact .done
    · exact .list _ (walkStmts_moves .nested true body rfl (guard.permits_nested _) covers)

lemma walkDefault_moves (statement : Span) (value : Stmt) (covers : guard.Covers nests value.nests value.defaultParts) :
    Walk setting nests guard builder (walkDefault setting statement value builder) := by
  cases value with
  | function literal =>
    exact walkFunction_moves _ literal ⟨fun _ => rfl,fun _ => rfl⟩ (fun _ => Guard.makes_of_loose rfl) covers
  | classDecl literal =>
    exact walkClass_moves _ literal ⟨fun _ => rfl,fun _ => rfl⟩ (fun _ => Guard.makes_of_loose rfl) covers
  | expression value span => exact walkExpr_moves _ value ⟨⟨fun _ => rfl,fun _ => rfl⟩,rfl⟩ covers
  | _ => exact .done

end
end

/-! ### Programs -/

/-- The guard that admits the parts of a program, and what is declared and listed at its top level. -/
def Script.Program.guard (program : Program) : Guard where
  admits part := part ∈ program.parts
  declares exported span own := ∃ declaration ∈ program.declarations exported, declaration.span = span ∧
    declaration.isSignature = false ∧
    ∀ name, own = some name → name ∈ declaration.declaredNames.map Ident.name
  lists name := name ∈ program.listedNames

lemma Script.Program.guard_declares {program : Program} {declaration : Stmt}
    (listed : declaration ∈ program.declarations exported) : program.guard.Declares exported declaration := by
  cases declaration with
  | function literal =>
    refine fun defines => ⟨_,listed,rfl,by simp [Stmt.isSignature,defines],fun own named => ?_⟩
    obtain ⟨id,found,rfl⟩ := Option.map_eq_some_iff.1 named
    simp [Stmt.declaredNames,found]
  | classDecl literal =>
    refine fun defines => ⟨_,listed,rfl,defines,fun own named => ?_⟩
    obtain ⟨id,found,rfl⟩ := Option.map_eq_some_iff.1 named
    simp [Stmt.declaredNames,found]
  | _ => trivial

lemma Script.Program.guard_permits {program : Program} {statement : Stmt}
    (listed : statement ∈ program.body) : program.guard.Permits .top statement := by
  cases statement with
  | exportNames locals exported span => exact fun id here => List.mem_flatMap.2 ⟨_,listed,List.mem_map_of_mem here⟩
  | exportDeclaration declaration span => exact @guard_declares true program _ (List.mem_filterMap.2 ⟨_,listed,rfl⟩)
  | _ => exact @guard_declares false program _ listed

lemma walk_of_program (setting : Selecting) (program : Program) (nested : nests → statementsNest program.body = true) :
    Walk setting nests program.guard { tree := Scoping.ofProgram program.span }
      (({ tree := Scoping.ofProgram program.span } : Builder).withList (starts program.body)
        (walkStmts setting .top program.body)) :=
  .list (starts program.body) (walkStmts_moves setting .top true program.body rfl
    (fun _ listed => Program.guard_permits listed) ⟨nested,fun _ listed => listed⟩)

/-! ### Walks that need no guard -/

def Guard.free : Guard := ⟨fun _ => True,fun _ _ _ => True,fun _ => True⟩

namespace Guard

lemma free_makes {lists : List (List Nat)} (unnamed : site.context.introducesItself = true → site.name = none) :
    Guard.free.Makes lists site candidate := by
  refine ⟨fun _ _ => trivial,?_⟩
  split
  · trivial
  · rename_i context
    exact ⟨unnamed (by rw [context]; rfl),true,trivial⟩
  · trivial

lemma Covers.free {inner : Bool} : Guard.free.Covers False inner code := ⟨False.elim,fun _ _ => trivial⟩

lemma free_permits (level : Level) (statement : Stmt) : Guard.free.Permits level statement := by
  unfold Permits Declares
  repeat' split
  all_goals simp [Guard.free]

end Guard

lemma Site.Fits.free {lists : List (List Nat)} {candidate : Candidate} (fits : site.Fits False candidate.span) :
    site.Suits False .free lists candidate :=
  ⟨fits,False.elim,Guard.free_makes fits.unnamed⟩

section
variable (setting : Selecting) {builder : Builder}

lemma walkStmts_free (level : Level) (statements : List Stmt) :
    Walk setting False .free builder (walkStmts setting level statements builder) :=
  walkStmts_moves setting level true statements rfl (fun _ _ => Guard.free_permits ..) .free

lemma walkStmt_free (level : Level) (statement : Stmt) :
    Walk setting False .free builder (walkStmt setting level statement builder) :=
  walkStmt_moves setting level true statement rfl (Guard.free_permits ..) .free

lemma record_free (mention : Mention) (position : Position) (span : Span) :
    Walk setting False .free builder (builder.record mention position span) :=
  .records mention position span False.elim

lemma recordName_free (position : Position) (id : Ident) :
    Walk setting False .free builder (builder.recordName position id) :=
  .name position id False.elim

end
end Resumable
