import Resumable.Proofs.Capturing
import Resumable.Proofs.Declaring

/-! The walk follows the outline. `Trace` lists what both do at a place: the walk declares names, lists imports and
exports and makes closures aside; names are used and scopes are opened in step. A frame is entered by the outline
only, and its names are known to the scope by the time it is left. -/
namespace Resumable
open Script Scoping
variable {α : Type} {site : Site} {level : Level}

/-- A construct that a candidate for a closure is made of. A function is one only if its body does not
use `super`. -/
def Construct.makes (construct : Construct) (candidate : Candidate) : Prop :=
  match construct with
  | .function literal => candidate = functionCandidate .function literal.head ∧ literal.bodyUsesSuper = false
  | .arrow literal => candidate = functionCandidate .arrow literal.head ∧ literal.bodyUsesSuper = false
  | .classLiteral literal => candidate = classCandidate literal.head
  | _ => False

/-- A literal that becomes a closure wherever it stands, if its name is selected. -/
def Construct.isOffered : Construct → Bool
  | .arrow literal => !literal.bodyUsesSuper
  | .classLiteral _ => true
  | _ => false

def ScopeRole.isFunction : ScopeRole → Bool
  | function | method => true
  | _ => false

def Construct.opens : Construct → ScopeRole → Bool
  | .program, role => role == .program
  | .function _, role => role.isFunction
  | .arrow _, role => role == .arrow
  | .classLiteral _, role => role == .classBody
  | .member, role => role == .classMember
  | .loop, role => role == .loop

/-! ### References of a scope -/

section
variable {tree : Scoping} {change : Scope → Scope} {id s : ScopeIndex} {setting : Selecting} {builder : Builder}

lemma Scoping.referencesIn_updateScope (keeps : ∀ scope, (change scope).references = scope.references)
    (s : ScopeIndex) : (tree.updateScope id change).referencesIn s = tree.referencesIn s := by
  rw [referencesIn,scope?_updateScope,Option.map_map,referencesIn]
  congr 2
  funext scope
  simp only [Function.comp_apply]
  split
  · exact keeps scope
  · rfl

lemma Scoping.referencesIn_updateScope_ne (change : Scope → Scope) (other : id ≠ s) :
    (tree.updateScope id change).referencesIn s = tree.referencesIn s := by
  rw [referencesIn,scope?_updateScope,Option.map_map,referencesIn]
  congr 2
  funext scope
  simp [other]

lemma Scoping.referencesIn_updateScope_append (adds : ∀ scope, (change scope).references = scope.references ++ more)
    (inside : id < tree.scopes.length) :
    (tree.updateScope id change).referencesIn id = tree.referencesIn id ++ more := by
  obtain ⟨scope,found⟩ := scope?_of_lt inside
  rw [referencesIn,scope?_updateScope,referencesIn,found]
  simp [adds]

lemma Scoping.referencesIn_openScope (kind : ScopeRole) (parent : ScopeIndex) (owner : Span)
    (low : s < tree.scopes.length) :
    (tree.openScope kind parent owner).2.referencesIn s = tree.referencesIn s := by
  rw [referencesIn,scope?_openScope_old _ _ _ low,Option.map_map,referencesIn]
  congr 2
  funext scope
  simp only [Function.comp_apply]
  split <;> rfl

lemma referencesIn_declare (scope : ScopeIndex) (name : String) (s : ScopeIndex) :
    (tree.declare scope name).referencesIn s = tree.referencesIn s :=
  referencesIn_updateScope (fun scope => by split <;> rfl) s

lemma Scoping.referencesIn_insertClosure (closure : Closure) (s : ScopeIndex) :
    (tree.insertClosure closure).2.referencesIn s = tree.referencesIn s := by
  rw [referencesIn,scope?_insertClosure,Option.map_map,referencesIn]
  congr 2
  funext scope
  simp only [Function.comp_apply]
  split <;> rfl

lemma Scoping.closures_passUp {tree : Scoping} (id : ScopeIndex) : (tree.passUp id).closures = tree.closures := by
  unfold passUp
  split
  · split <;> rfl
  · rfl

lemma closures_register (site : Site) (candidate : Candidate) (parent : ScopeIndex) :
    builder.tree.closures ⊆ (register setting site candidate parent builder).2.tree.closures := by
  unfold register
  dsimp only
  split
  · exact List.Subset.refl _
  · exact List.subset_append_left _ _

lemma closure_of_register (every : ∀ name, setting.selects name = true) (site : Site) (candidate : Candidate)
    (parent : ScopeIndex) : ∃ closure ∈ (register setting site candidate parent builder).2.tree.closures,
      closure.scope = builder.current := by
  unfold register
  dsimp only
  rw [if_neg (by simp [every])]
  exact ⟨_,List.mem_append_right _ (List.mem_singleton_self _),rfl⟩

lemma Walk.closures {guard : Guard} (walk : Walk setting nests guard builder later) :
    builder.tree.closures ⊆ later.tree.closures := by
  induction walk with
  | done | declares | records | imports => exact List.Subset.refl _
  | exports =>
    unfold Builder.exportName
    split <;> exact List.Subset.refl _
  | andThen _ _ one two => exact List.Subset.trans one two
  | list _ _ ih => exact ih
  | nested _ _ _ ih =>
    rw [Builder.pop,Scoping.closures_passUp]
    exact ih
  | closure _ _ _ _ _ _ _ _ one two =>
    rw [Builder.pop,Scoping.closures_passUp]
    exact List.Subset.trans (List.Subset.trans one (closures_register ..)) two

lemma referencesIn_register (site : Site) (candidate : Candidate) (parent s : ScopeIndex) :
    (register setting site candidate parent builder).2.tree.referencesIn s = builder.tree.referencesIn s := by
  simp only [register]
  split
  · rfl
  · rw [Scoping.addExport,referencesIn_updateScope (by intro _; rfl), referencesIn_insertClosure]

end

/-! ### Traces -/

/-- What the walk may do where the outline does nothing: no scope is opened, and nothing is used. -/
structure Builder.Aside (builder later : Builder) : Prop where
  current : later.current = builder.current
  grows : builder.tree.Grows later.tree
  length : later.tree.scopes.length = builder.tree.scopes.length
  references : ∀ s, later.tree.referencesIn s = builder.tree.referencesIn s

/-- How the use of a name, or of `this`, is recorded. -/
def Builder.Reads (builder : Builder) (name : Option String) : Mention → Prop
  | .this owner => name = none ∧ owner = ((builder.tree.scope? builder.current).map Scope.thisOwner).getD Scoping.root
  | .identifier text => name = some text ∧ (text = "arguments" → (builder.tree.resolve builder.current text).isSome ∨
      builder.tree.ownerOfArguments builder.current = none)
  | .arguments owner => name = some "arguments" ∧ builder.tree.ownerOfArguments builder.current = some owner

inductive Trace (setting : Selecting) : Spot → Builder → Outline → Builder → Outline → Prop where
  | andThen {place b₁ o₁ b₂ o₂ b₃ o₃} :
    Trace setting place b₁ o₁ b₂ o₂ → Trace setting place b₂ o₂ b₃ o₃ → Trace setting place b₁ o₁ b₃ o₃
  | aside {place builder later outline} (aside : builder.Aside later)
      (made : ∀ closure ∈ later.tree.closures, closure ∈ builder.tree.closures ∨
        closure.scope = builder.current ∧ ∃ opening candidate,
          outline.openings[place.scope]? = some opening ∧ opening.construct.makes candidate ∧
          closure.span = candidate.span ∧ closure.kind = candidate.kind)
      (kept : builder.tree.closures ⊆ later.tree.closures) :
    Trace setting place builder outline later outline
  | uses {place builder outline name mention} (position : Position) (span : Span) (reads : builder.Reads name mention) :
    Trace setting place builder outline (builder.record mention position span) (outline.addUse place position name span)
  | frame {place builder outline later after} (names : List String)
      (known : ∀ name ∈ names, later.tree.Knows place.scope name) :
    Trace setting (outline.enter place names) builder (outline.addFrame place names) later after →
      Trace setting place builder outline later after
  | nested {place builder outline later after} (kind : ScopeRole) (owner : Span)
      (construct : Construct) (opens : construct.opens kind = true)
      (offers : (∀ name, setting.selects name = true) → construct.isOffered = true →
        ∃ closure ∈ later.tree.closures, closure.scope = (builder.push kind owner).current) :
    Trace setting (outline.inside place) (builder.push kind owner) (outline.addOpening place construct)
      later after → Trace setting place builder outline later.pop after

namespace Trace

variable {place : Spot} {builder later : Builder} {outline after : Outline} {step : Builder → α → Builder}

lemma quiet (aside : builder.Aside later) (same : later.tree.closures = builder.tree.closures) :
    Trace setting place builder outline later outline :=
  .aside aside (fun _ listed => .inl (same ▸ listed)) fun _ listed => same ▸ listed

lemma done : Trace setting place builder outline builder outline :=
  .quiet ⟨rfl,(Scoping.Extends.refl _).grows,rfl,fun _ => rfl⟩ rfl

lemma declares (scope : ScopeIndex) (name : String) :
    Trace setting place builder outline (builder.declareIn scope name) outline :=
  .quiet ⟨rfl,(declare_extends ..).grows,length_updateScope .., referencesIn_declare scope name⟩ rfl

lemma imports (id : Ident) : Trace setting place builder outline (builder.addImport id) outline :=
  .andThen (.declares Scoping.root id.name) (.quiet ⟨rfl,(addImport_extends _).grows,
    length_updateScope ..,referencesIn_updateScope fun _ => rfl⟩ rfl)

lemma exports (id : Ident) : Trace setting place builder outline (builder.exportName id) outline := by
  unfold Builder.exportName
  split
  · exact .done
  · exact .quiet ⟨rfl,(Scoping.Extends.refl _).grows,rfl,fun _ => rfl⟩ rfl

lemma names (position : Position) (id : Ident) : Trace setting place builder outline (builder.recordName position id)
      (outline.addUse place position (some id.name) id.span) := by
  rcases Builder.recordName_cases position id with ⟨equal,free⟩ | ⟨owner,equal,named,isOwner⟩
  · rw [equal]
    exact .uses position id.span ⟨rfl,free⟩
  · rw [equal]
    exact .uses position id.span ⟨congrArg some named,isOwner⟩

lemma list {walk : Builder → Builder} (starts : List Nat)
    (trace : Trace setting place { builder with lists := starts :: builder.lists } outline
      (walk { builder with lists := starts :: builder.lists }) after) :
    Trace setting place builder outline (builder.withList starts walk) after := by
  have entered : builder.Aside { builder with lists := starts :: builder.lists } :=
    ⟨rfl,(Scoping.Extends.refl _).grows,rfl,fun _ => rfl⟩
  exact .andThen (.quiet entered rfl)
    (.andThen trace (.quiet ⟨rfl,(Scoping.Extends.refl _).grows,rfl,fun _ => rfl⟩ rfl))

lemma registers (setting : Selecting) (site : Site) (candidate : Candidate) (parent : ScopeIndex)
    (opened : outline.openings[place.scope]? = some opening) (makes : opening.construct.makes candidate) :
    Trace setting place builder outline (register setting site candidate parent builder).2 outline := by
  refine .aside ⟨register_current ..,register_grows ..,length_register ..,
    referencesIn_register site candidate parent⟩ (fun closure listed => ?_) (closures_register ..)
  unfold register at listed
  dsimp only at listed
  split at listed
  · exact .inl listed
  · refine (List.mem_append.1 listed).imp_right fun new => ?_
    rw [List.mem_singleton.1 new]
    exact ⟨rfl,opening,candidate,opened,makes,rfl,rfl⟩

lemma foldl {also : Outline → α → Outline} {values : List α}
    (steps : ∀ value builder outline, Trace setting place builder outline (step builder value)
      (also outline value)) (builder : Builder) (outline : Outline) : Trace setting place builder outline
      (values.foldl step builder) (values.foldl also outline) := by
  induction values generalizing builder outline with
  | nil => exact .done
  | cons value rest ih => exact .andThen (steps value builder outline) (ih _ _)

lemma foldl_aside {values : List α}
    (steps : ∀ value builder outline, Trace setting place builder outline (step builder value) outline)
    (builder : Builder) (outline : Outline) :
    Trace setting place builder outline (values.foldl step builder) outline := by
  induction values generalizing builder with
  | nil => exact .done
  | cons value rest ih => exact .andThen (steps value builder outline) (ih _)

lemma declareOwn (builder : Builder) (outline : Outline) (scope : ScopeIndex) (id : Option Ident) :
    Trace setting place builder outline (builder.declareOwn scope id) outline := by
  cases id with
  | none => exact .done
  | some id => exact .declares scope id.name

lemma declareAll (builder : Builder) (outline : Outline) (scope : ScopeIndex) (ids : List Ident) :
    Trace setting place builder outline (builder.declareAll scope ids) outline :=
  foldl_aside (fun id _ _ => .declares scope id.name) builder outline

lemma declareFunctionName (site : Site) (registered : Bool) (parent : ScopeIndex)
    (head : FunctionHead) (builder : Builder) (outline : Outline) :
    Trace setting place builder outline (declareFunctionName site registered parent head builder) outline := by
  unfold Resumable.declareFunctionName
  split
  · split
    · exact .done
    · exact declareOwn ..
  · exact declareOwn ..

lemma openings_grow (trace : Trace setting place builder outline later after) :
    outline.openings <+: after.openings := by
  induction trace with
  | andThen _ _ one two => exact one.trans two
  | aside | uses => exact List.prefix_refl _
  | frame _ _ _ ih => exact ih
  | nested _ _ _ _ _ _ ih => exact (List.prefix_append _ _).trans ih

lemma getElem?_of_grown {first second : List α} (grown : first <+: second) {i : Nat} {value : α}
    (found : first[i]? = some value) : second[i]? = some value := by
  obtain ⟨rest,rfl⟩ := grown
  rw [List.getElem?_append_left (List.getElem?_eq_some_iff.1 found).1,found]

lemma counted (trace : Trace setting place builder outline later after)
    (same : builder.tree.scopes.length = outline.openings.length) :
    later.tree.scopes.length = after.openings.length := by
  induction trace with
  | andThen _ _ one two => exact two (one same)
  | aside aside => exact aside.length.trans same
  | uses => rwa [Builder.record,Scoping.addReference,length_updateScope]
  | frame _ _ _ ih => exact ih same
  | nested kind owner construct _ _ _ ih =>
    rw [Builder.pop,length_passUp]
    exact ih (by simp [Builder.push,Scoping.openScope,Outline.addOpening,same])

end Trace

/-! ### Every walk follows its outline -/

/-- A site of an expression: a function there is not known around itself. -/
structure Site.Plain (site : Site) : Prop where
  role : site.role.isFunction = true
  unbound : site.context.introducesItself = false

lemma Site.plain_default : Site.Plain {} := ⟨rfl,rfl⟩

lemma propertySite_plain (kind : PropertyKind) (key : Key) (span : Span) : (propertySite kind key span).Plain := by
  cases kind <;> exact ⟨rfl,rfl⟩

lemma Site.Plain.part (plain : site.Plain) (shape : Shape) (span : Span) (before after : Nat) :
    (partSite site shape span before after).Plain := by
  unfold partSite
  split
  · exact ⟨rfl,plain.unbound⟩
  · exact ⟨rfl,rfl⟩
  · exact ⟨rfl,rfl⟩
  · exact propertySite_plain ..
  · exact propertySite_plain ..
  · exact ⟨rfl,rfl⟩

lemma Site.Plain.fits (plain : site.Plain) (span : Span) : site.Fits False span :=
  ⟨fun introduces => absurd introduces (by simp [plain.unbound]),False.elim⟩

lemma partSite_position (site : Site) (span : Span) (called : shape = .construct → 1 ≤ k)
    (spelled : ∀ key, shape = .property .shorthand key → 1 ≤ k + after) :
    (partSite site shape span k after).position = .plain := by
  have property (kind : PropertyKind) (key : Key) : (propertySite kind key span).position = .plain := by
    cases kind <;> rfl
  unfold partSite
  split <;> simp_all [Site.inner]

/-- A walk that has come to a place, as the outline has. -/
structure Builder.At (builder : Builder) (place : Spot) (outline : Outline) : Prop where
  sound : builder.tree.Sound False builder.current
  here : builder.current = place.scope
  counted : builder.tree.scopes.length = outline.openings.length

namespace Builder.At

variable {setting : Selecting} {place : Spot} {builder later last : Builder} {outline after end_ : Outline}

variable (at_ : builder.At place outline)
include at_

lemma andThen (walk : Walk setting False .free builder later) (trace : Trace setting place builder outline later after)
    (rest : later.At place after → Trace setting place later after last end_) :
    Trace setting place builder outline last end_ :=
  .andThen trace (rest ⟨walk.sound at_.sound,walk.frame.2.trans at_.here,trace.counted at_.counted⟩)

lemma frame (names : List String) (known : ∀ name ∈ names, later.tree.Knows builder.current name)
    (rest : builder.At (outline.enter place names) (outline.addFrame place names) →
      Trace setting (outline.enter place names) builder (outline.addFrame place names) later after) :
    Trace setting place builder outline later after :=
  .frame names (at_.here ▸ known) (rest ⟨at_.sound,at_.here,at_.counted⟩)

lemma list (starts : List Nat) (rest : ∀ inner : Builder, inner.At place outline → inner.tree = builder.tree →
      inner.current = builder.current → Trace setting place inner outline (walk inner) after) :
    Trace setting place builder outline (builder.withList starts walk) after :=
  .list starts (rest _ ⟨at_.sound,at_.here,at_.counted⟩ rfl rfl)

lemma nested (kind : ScopeRole) (owner : Span) (construct : Construct) (opens : construct.opens kind = true)
    (offers : (∀ name, setting.selects name = true) → construct.isOffered = true →
      ∃ closure ∈ later.tree.closures, closure.scope = (builder.push kind owner).current)
    (rest : (builder.push kind owner).At (outline.inside place) (outline.addOpening place construct) →
      Trace setting (outline.inside place) (builder.push kind owner) (outline.addOpening place construct) later after) :
    Trace setting place builder outline later.pop after := by
  refine .nested kind owner construct opens offers (rest ⟨at_.sound.openScope kind owner,at_.counted,?_⟩)
  simp [Builder.push,Scoping.openScope,Outline.addOpening,at_.counted]

end Builder.At

/-- Steps of the walk that follow steps of the outline, wherever both have come to one place. -/
structure Follows (setting : Selecting) (steps : Builder → Builder) (also : Spot → Outline → Outline) :
    Prop where
  walk : ∀ builder, Walk setting False .free builder (steps builder)
  trace : ∀ {place builder outline}, builder.At place outline →
    Trace setting place builder outline (steps builder) (also place outline)

namespace Follows

variable {setting : Selecting} {steps next : Builder → Builder} {also alsoNext : Spot → Outline → Outline}

lemma done : Follows setting (fun builder => builder) fun _ outline => outline := ⟨fun _ => .done,fun _ => .done⟩

lemma andThen (first : Follows setting steps also) (second : Follows setting next alsoNext) :
    Follows setting (fun builder => next (steps builder)) fun place outline => alsoNext place (also place outline) :=
  ⟨fun builder => .andThen (first.walk builder) (second.walk _),
    fun at_ => at_.andThen (first.walk _) (first.trace at_) second.trace⟩

lemma names (position : Position) (id : Ident) : Follows setting (·.recordName position id)
    fun place outline => outline.addUse place position (some id.name) id.span :=
  ⟨fun _ => recordName_free setting position id,fun _ => .names position id⟩

lemma declareAll (scope : Builder → ScopeIndex) (ids : List Ident) :
    Follows setting (fun builder => builder.declareAll (scope builder) ids) fun _ outline => outline :=
  ⟨fun _ => Walk.declareAll _ _ fun _ _ => trivial,fun _ => .declareAll ..⟩

variable (inner : Follows setting steps also)
include inner

lemma frame {names : List String} (known : ∀ {builder}, builder.tree.Sound False builder.current → ∀ name ∈ names,
      (steps builder).tree.Knows builder.current name) :
    Follows setting steps fun place outline => also (outline.enter place names) (outline.addFrame place names) :=
  ⟨inner.walk,fun at_ => at_.frame names (known at_.sound) inner.trace⟩

lemma declaring (ids : List Ident) : Follows setting (fun builder => steps (builder.declareAll builder.current ids))
      fun place outline => also (outline.enter place (ids.map Ident.name))
        (outline.addFrame place (ids.map Ident.name)) := by
  have declared (builder : Builder) : Walk setting False .free builder (builder.declareAll builder.current ids) :=
    Walk.declareAll _ _ fun _ _ => trivial
  refine ⟨fun builder => .andThen (declared builder) (inner.walk _),fun at_ => ?_⟩
  refine at_.andThen (declared _) (.declareAll ..) fun at₁ => at₁.frame _ (fun name listed => ?_) inner.trace
  rw [(declared _).frame.2]
  exact (inner.walk _).knows (knows_declareAll at_.sound.inside listed)

lemma list (starts : List Nat) : Follows setting (·.withList starts steps) also :=
  ⟨fun _ => .list starts (inner.walk _),fun at_ => at_.list starts fun _ at_ _ _ => inner.trace at_⟩

lemma nested (kind : ScopeRole) (owner : Span) (construct : Construct) (opens : construct.opens kind = true)
    (plain : construct.isOffered = false) :
    Follows setting (fun builder => (steps (builder.push kind owner)).pop) fun place outline =>
      also (outline.inside place) (outline.addOpening place construct) :=
  ⟨fun _ => .nested kind owner (inner.walk _), fun at_ => at_.nested kind owner construct opens
    (fun _ offered => by simp [plain] at offered) inner.trace⟩

end Follows

/-! ### Functions -/

section
variable (setting : Selecting) {builder : Builder} {place : Spot} {outline : Outline} {kind : ScopeRole}
  {candidate : Candidate} {parent : ScopeIndex} {body : List Stmt} {head : FunctionHead}

section
variable (sound : builder.tree.Sound False builder.current)
include sound

lemma functionScope_push_self (function : kind ≠ .loop) (owner : Span) :
    (builder.push kind owner).tree.functionScope (builder.push kind owner).current =
      (builder.push kind owner).current := by
  obtain ⟨opened,found,up,-⟩ := Scoping.scope?_openScope_new builder.tree kind builder.current owner
  have around : (builder.push kind owner).tree.chain builder.tree.scopes.length =
      builder.tree.scopes.length :: (builder.push kind owner).tree.chain builder.current :=
    chain_of_parent (sound.openScope kind owner).parented found up
  have isKind : (builder.push kind owner).tree.kindOf builder.tree.scopes.length = kind := by
    simp [Builder.push,Scoping.openScope,Scoping.kindOf,Scoping.scope?]
  rw [Scoping.functionScope,Builder.push_current,around,List.dropWhile_cons,isKind, if_neg (by simpa using function)]
  rfl

lemma walkStmts_knowsBody (top : level = .top → builder.current = Scoping.root)
    (function : builder.tree.functionScope builder.current = builder.current) (listed : name ∈ bodyNames level body) :
    (walkStmts setting level body builder).tree.Knows builder.current name := by
  rcases List.mem_append.1 listed with hoisted | lexical
  · have known : (walkStmts setting level body builder).tree.Knows _ name :=
      walkStmts_knowsVars level body builder sound hoisted
    rwa [function] at known
  · exact walkStmts_knows level body sound top lexical

end

lemma list_traces (at_ : builder.At place outline)
    (known : ∀ name ∈ names, ∀ inner : Builder, inner.tree = builder.tree → inner.current = builder.current →
        (walkStmts setting level body inner).tree.Knows builder.current name)
    (statements : Follows setting (walkStmts setting level body) (outlineStmts · level body)) :
    Trace setting place builder outline (builder.withList (starts body) (walkStmts setting level body))
      (outlineStmts (outline.enter place names) level body (outline.addFrame place names)) := by
  refine at_.list _ fun inner at_ tree current => at_.frame names (fun name listed => ?_) statements.trace
  rw [current]
  exact known name listed inner tree current

lemma Builder.At.register (at_ : inside.At place outline) (candidate : Candidate)
    (walk : Walk setting False .free (builder.push kind owner) inside)
    (first : candidate.kind ≠ .classLiteral → inside = builder.push kind owner)
    (fits : site.Fits False candidate.span) :
    (Resumable.register setting site candidate builder.current inside).2.At place outline :=
  ⟨register_sound setting candidate at_.sound walk first fits False.elim,
    (register_current ..).trans at_.here,(length_register ..).trans at_.counted⟩

lemma length_push (kind : ScopeRole) (owner : Span) :
    (builder.push kind owner).tree.scopes.length = (builder.push kind owner).current + 1 := by
  simp [Builder.push,Scoping.openScope]

def walkBody (params : List Pattern) (body : List Stmt) (builder : Builder) : Builder :=
  (walkPatterns setting params (builder.declareAll builder.current (Params.names params))).withList
    (starts body) (walkStmts setting .nested body)

def outlineBody (place : Spot) (params : List Pattern) (body : List Stmt) (outline : Outline) :
    Outline :=
  let given := (Params.names params).map Ident.name
  let inside := outline.enter place given
  let walked := outlinePatterns inside params (outline.addFrame place given)
  outlineStmts (walked.enter inside (bodyNames .nested body)) .nested body
    (walked.addFrame inside (bodyNames .nested body))

variable {params : List Pattern} {body : List Stmt}
  (patterns : Follows setting (walkPatterns setting params) (outlinePatterns · params))
  (statements : Follows setting (walkStmts setting .nested body) (outlineStmts · .nested body))
include patterns statements

section
variable (at_ : builder.At place outline)
include at_

lemma body_traces (function : builder.tree.functionScope builder.current = builder.current) :
    Trace setting place builder outline (walkBody setting params body builder)
      (outlineBody place params body outline) := by
  let entered := builder.declareAll builder.current (Params.names params)
  have first : Walk setting False .free builder entered := Walk.declareAll _ _ fun _ _ => trivial
  have second : Walk setting False .free entered _ := patterns.walk entered
  have third : Walk setting False .free (walkPatterns setting params entered) _ :=
    .list (starts body) (statements.walk _)
  have sound := (first.andThen second).sound at_.sound
  have function := ((first.andThen second).functionScope at_.sound).trans function
  rw [← (first.andThen second).frame.2] at function
  refine at_.andThen first (.declareAll builder outline _ (Params.names params)) fun at₁ => ?_
  refine at₁.frame ((Params.names params).map Ident.name) (fun name listed => ?_) fun at₁ => ?_
  · rw [first.frame.2]
    exact (second.andThen third).knows (knows_declareAll at_.sound.inside listed)
  refine at₁.andThen second (patterns.trace at₁) fun at₂ => ?_
  refine list_traces setting at₂ (fun name listed inner tree current => ?_) statements
  rw [← tree,← current] at sound function
  rw [← current]
  exact walkStmts_knowsBody setting sound nofun function listed

lemma function_traces (role : site.role.isFunction = true)
    (fits : site.Fits False head.span) (unbound : level = .loose → site.context.introducesItself = false) :
    Trace setting place builder outline (walkFunction setting site (.mk head params body) builder)
      (outlineFunction place level (.mk head params body) outline) := by
  simp only [walkFunction,outlineFunction]
  by_cases signature : (!head.hasBody) = true
  · rw [if_pos signature,if_pos signature]
    split
    · exact .declareOwn ..
    · exact .done
  rw [if_neg signature,if_neg signature]
  have isFunction : site.role ≠ .loop := fun loop => by simp [loop,ScopeRole.isFunction] at role
  have function := functionScope_push_self at_.sound isFunction head.span
  have inside {named entered : Builder} {registered : Bool} (at₁ : entered.At (outline.inside place)
        (outline.addOpening place (.function (.mk head params body))))
      (function : entered.tree.functionScope entered.current = entered.current)
      (same : named = declareFunctionName site registered builder.current head entered) :
      Trace setting (outline.inside place) entered (outline.addOpening place (.function (.mk head params body)))
        (walkBody setting params body named)
        (let own := if level == .loose then head.name.toList.map Ident.name else []
          let opened := outline.addOpening place (.function (.mk head params body))
          outlineBody (opened.enter (outline.inside place) own) params body
            (opened.addFrame (outline.inside place) own)) := by
    subst same
    have named : Walk setting False .free entered (declareFunctionName site registered builder.current head entered) :=
      Walk.declareFunctionName _ _ _ fun _ _ => trivial
    refine at₁.andThen named (.declareFunctionName ..) fun at₂ => ?_
    refine at₂.frame _ (fun name listed => (Walk.body (fun _ _ => trivial) (patterns.walk _)
      (fun _ => statements.walk _) _).knows ?_) fun at₂ =>
      body_traces setting patterns statements at₂ ?_
    · split at listed
      · rename_i loose
        rw [named.frame.2,declareFunctionName,if_neg (by simp [unbound (by simpa using loose)])]
        exact knows_declareOwn at₁.sound.inside listed
      · simp at listed
    · rw [named.functionScope at₁.sound,named.frame.2,function]
  refine at_.nested site.role head.span (.function (.mk head params body)) role
    (fun _ offered => absurd offered Bool.false_ne_true) fun at₁ => ?_
  split
  · rename_i candidate
    simp only [Bool.and_eq_true,Bool.not_eq_true'] at candidate
    have registered := at₁.register setting (functionCandidate .function head) .done (fun _ => rfl) fits
    have opened : (outline.addOpening place (.function (.mk head params body))).openings[
        (outline.inside place).scope]? = some ⟨.function (.mk head params body),some place⟩ := by
      simp [Outline.addOpening,Outline.inside]
    refine .andThen (.registers setting site _ _ opened ⟨rfl,candidate.2⟩) (inside registered ?_ rfl)
    rw [register_current]
    exact ((register_grows ..).functionScope_eq at₁.sound.parented registered.sound.parented
      at₁.sound.inside).trans function
  · exact inside at₁ function rfl

lemma arrow_traces (fits : site.Fits False head.span) :
    Trace setting place builder outline (walkArrow setting site (.mk head params body) builder)
      (outlineArrow place (.mk head params body) outline) := by
  have isArrow : ScopeRole.arrow ≠ .loop := nofun
  have function := functionScope_push_self at_.sound isArrow head.span
  simp only [walkArrow,outlineArrow]
  refine at_.nested .arrow head.span (.arrow (.mk head params body)) rfl (fun every offered => ?_) fun at₁ => ?_
  · have unused : statementsUseSuper body = false := by simpa [Construct.isOffered,Func.bodyUsesSuper] using offered
    rw [if_neg (by simp [unused])]
    obtain ⟨closure,made,own⟩ := closure_of_register every site (functionCandidate .arrow head) builder.current
    exact ⟨closure,(Walk.body (fun _ _ => trivial) (patterns.walk _) (fun _ => statements.walk _) _).closures made,own⟩
  split
  · exact body_traces setting patterns statements at₁ function
  rename_i noSuper
  have registered := at₁.register setting (functionCandidate .arrow head) .done (fun _ => rfl) fits
  have opened : (outline.addOpening place (.arrow (.mk head params body))).openings[
      (outline.inside place).scope]? = some ⟨.arrow (.mk head params body),some place⟩ := by
    simp [Outline.addOpening,Outline.inside]
  refine .andThen (.registers setting site _ _ opened ⟨rfl,Bool.eq_false_iff.2 noSuper⟩)
    (body_traces setting patterns statements registered ?_)
  rw [register_current]
  exact ((register_grows ..).functionScope_eq at₁.sound.parented registered.sound.parented
    at₁.sound.inside).trans function

end

omit patterns statements in
lemma class_traces {head : ClassHead} {decorators base : List Expr} {members : List Member}
    (at_ : builder.At place outline) (fits : site.Fits False head.span)
    (first : Follows setting (walkExprs setting decorators) (outlineExprs · decorators))
    (second : Follows setting (walkExprs setting base) (outlineExprs · base))
    (inner : Follows setting (walkMembers setting members) (outlineMembers · members)) :
    Trace setting place builder outline (walkClass setting site (.mk head decorators base members) builder)
      (outlineClass place (.mk head decorators base members) outline) := by
  simp only [walkClass,outlineClass]
  by_cases ambient : head.isAmbient = true
  · rw [if_pos ambient,if_pos ambient]
    split
    · exact .declareOwn ..
    · exact .done
  rw [if_neg ambient,if_neg ambient]
  let opening : Opening := ⟨.classLiteral (.mk head decorators base members),some place⟩
  have opened : (outline.addOpening place opening.construct).openings[(outline.inside place).scope]? =
      some opening := by
    simp [Outline.addOpening,Outline.inside,opening]
  have own (builder : Builder) (scope : ScopeIndex) :
      Walk setting False .free builder (builder.declareOwn scope head.name) :=
    Walk.declareOwn scope fun _ _ => trivial
  have decorating := first.walk (builder.push .classBody head.span)
  have basing := second.walk (walkExprs setting decorators (builder.push .classBody head.span))
  refine at_.nested .classBody head.span opening.construct rfl (fun every _ => ?_) fun at₁ => ?_
  · obtain ⟨closure,made,is⟩ := closure_of_register every site (classCandidate head) builder.current
    refine ⟨closure,((own _ _).andThen (inner.walk _)).closures ?_,is.trans (basing.frame.2.trans decorating.frame.2)⟩
    split
    · exact (own _ _).closures made
    · exact made
  have decorated := first.trace at₁
  refine at₁.andThen decorating decorated fun at₂ => ?_
  have registered := register_sound setting (classCandidate head)
    ((decorating.andThen basing).sound at₁.sound) (decorating.andThen basing) (fun other => absurd rfl other)
    fits False.elim
  -- the name of the class is declared in its scope before the members are walked
  have declared {named : Builder} {name : String} (listed : name ∈ head.name.toList.map Ident.name)
      (walk : Walk setting False .free (register setting site (classCandidate head) builder.current
        (walkExprs setting base (walkExprs setting decorators (builder.push .classBody head.span)))).2
        named) :
      (walkMembers setting members (named.declareOwn named.current head.name)).tree.Knows
        (walkExprs setting decorators (builder.push .classBody head.span)).current name := by
    have known := knows_declareOwn (walk.sound registered).inside listed
    have same := (walk.frame.2.trans (register_current ..)).trans basing.frame.2
    rw [← same]
    exact (inner.walk _).knows known
  refine at₂.frame (head.name.toList.map Ident.name) (fun name listed => ?_) fun at₂ => ?_
  · split
    · exact declared listed (own _ _)
    · exact declared listed .done
  have based := second.trace at₂
  refine at₂.andThen basing based fun at₃ => ?_
  have opened := Trace.getElem?_of_grown (decorated.openings_grow.trans based.openings_grow) opened
  refine .andThen (.registers setting site (classCandidate head) builder.current opened rfl) ?_
  have at₄ := at₃.register setting (classCandidate head) (decorating.andThen basing)
    (fun other => absurd rfl other) fits
  split
  · exact at₄.andThen (own _ _) (.declareOwn ..) fun at₅ => at₅.andThen (own _ _) (.declareOwn ..) inner.trace
  · exact at₄.andThen (own _ _) (.declareOwn ..) inner.trace

end

variable (setting : Selecting)

mutual

lemma walkExpr_follows (site : Site) (value : Expr) (plain : site.Plain) :
    Follows setting (walkExpr setting site value) (outlineExpr · site.position value) := by
  cases value with
  | name id => exact .names site.position id
  | target id => exact .names .assigned id
  | tag id => exact .names .tag id
  | thisValue span => exact ⟨fun _ => record_free setting _ _ span,fun _ => .uses .plain span ⟨rfl,rfl⟩⟩
  | node shape span parts =>
    have parted := walkParts_follows site shape span 0 parts plain
    cases shape with
    | construct =>
      cases parts with
      | nil => exact .done
      | cons callee given =>
        exact (walkExpr_follows _ callee (plain.part .construct span 0 given.length)).andThen
          (walkParts_follows site .construct span 1 given plain fun k after low _ =>
            partSite_position site span (fun _ => low) nofun)
    | property kind key =>
      cases kind with
      | shorthand =>
        cases parts with
        | nil => exact .done
        | cons value rest =>
          cases rest with
          | nil => exact walkExpr_follows _ value (plain.part (.property .shorthand key) span 0 0)
          | cons initial others =>
            exact parted fun k after _ total => partSite_position site span nofun fun _ _ => by
              rw [List.length_cons,List.length_cons] at total
              omega
      | _ => exact parted fun k after _ _ => partSite_position site span nofun nofun
    | _ => exact parted fun k after _ _ => partSite_position site span nofun nofun
  | assign isPlain span left right =>
    exact (walkExpr_follows {} left Site.plain_default).andThen (walkExpr_follows {} right Site.plain_default)
  | function literal => exact walkFunction_follows site .loose literal plain.role (plain.fits _) fun _ => plain.unbound
  | arrow literal => exact walkArrow_follows site literal (plain.fits _)
  | classLiteral literal => exact walkClass_follows site literal (plain.fits _)
  | superValue | number | string | boolean | null | atom | hole => exact .done

lemma walkParts_follows (site : Site) (shape : Shape) (span : Span) (before : Nat) (parts : List Expr)
    (plain : site.Plain) (alike : ∀ k after, before ≤ k → k + after + 1 = before + parts.length →
      (partSite site shape span k after).position = .plain) :
    Follows setting (walkParts setting site shape span before parts) (outlineExprs · parts) := by
  cases parts with
  | nil => exact .done
  | cons part rest =>
    have first := walkExpr_follows _ part (plain.part shape span before rest.length)
    rw [alike before rest.length le_rfl (by rw [List.length_cons]; omega)] at first
    exact first.andThen (walkParts_follows site shape span (before + 1) rest plain
      fun k after low total => alike k after (by omega) (by rw [List.length_cons]; omega))

lemma walkExprs_follows (values : List Expr) : Follows setting (walkExprs setting values) (outlineExprs · values) := by
  cases values with
  | nil => exact .done
  | cons value rest => exact (walkExpr_follows {} value Site.plain_default).andThen (walkExprs_follows rest)

lemma walkInitial_follows (site : Site) (values : List Expr) (plain : site.Plain) (alike : site.position = .plain) :
    Follows setting (walkInitial setting site values) (outlineExprs · values) := by
  cases values with
  | nil => exact .done
  | cons value rest =>
    have first := walkExpr_follows site value plain
    rw [alike] at first
    exact first.andThen (walkInitial_follows site rest plain alike)

lemma walkPattern_follows (pattern : Pattern) :
    Follows setting (walkPattern setting pattern) (outlinePattern · pattern) := by
  cases pattern with
  | bind | hole => exact .done
  | object fields => exact walkPatterns_follows fields
  | array elements => exact walkPatterns_follows elements
  | rest pattern => exact walkPattern_follows pattern
  | field key keyParts value => exact (walkExprs_follows keyParts).andThen (walkPattern_follows value)
  | slot decorators pattern initial =>
    exact ((walkExprs_follows decorators).andThen (walkPattern_follows pattern)).andThen (walkExprs_follows initial)

lemma walkPatterns_follows (patterns : List Pattern) :
    Follows setting (walkPatterns setting patterns) (outlinePatterns · patterns) := by
  cases patterns with
  | nil => exact .done
  | cons pattern others => exact (walkPattern_follows pattern).andThen (walkPatterns_follows others)

lemma walkSlots_follows (slots : List Pattern) :
    Follows setting (walkSlots setting slots) (outlinePatterns · slots) := by
  cases slots with
  | nil => exact .done
  | cons slot others =>
    cases slot with
    | slot decorators pattern initial =>
      exact (((walkExprs_follows decorators).andThen (walkPattern_follows pattern)).andThen
        (walkInitial_follows _ initial (by cases pattern <;> exact ⟨rfl,rfl⟩) (by cases pattern <;> rfl))).andThen
          (walkSlots_follows others)
    | _ => exact (walkPattern_follows _).andThen (walkSlots_follows others)

lemma walkFunction_follows (site : Site) (level : Level) (literal : Func)
    (role : site.role.isFunction = true) (fits : site.Fits False literal.head.span)
    (unbound : level = .loose → site.context.introducesItself = false) :
    Follows setting (walkFunction setting site literal) (outlineFunction · level literal) := by
  obtain ⟨head,params,body⟩ := literal
  exact ⟨fun _ => walkFunction_moves setting site _ fits (fun _ _ => fits.free.makes) .free,fun at_ =>
    function_traces setting (walkPatterns_follows params) (walkStmts_follows .nested body) at_ role fits unbound⟩

lemma walkArrow_follows (site : Site) (literal : Func) (fits : site.Fits False literal.head.span) :
    Follows setting (walkArrow setting site literal) (outlineArrow · literal) := by
  obtain ⟨head,params,body⟩ := literal
  exact ⟨fun _ => walkArrow_moves setting site _ fits (fun _ => fits.free.makes) .free,fun at_ =>
    arrow_traces setting (walkPatterns_follows params) (walkStmts_follows .nested body) at_ fits⟩

lemma walkClass_follows (site : Site) (literal : ClassLiteral) (fits : site.Fits False literal.head.span) :
    Follows setting (walkClass setting site literal) (outlineClass · literal) := by
  obtain ⟨head,decorators,base,members⟩ := literal
  exact ⟨fun _ => walkClass_moves setting site _ fits (fun _ _ => fits.free.makes) .free,fun at_ =>
    class_traces setting at_ fits (walkExprs_follows decorators) (walkExprs_follows base) (walkMembers_follows members)⟩

lemma walkMembers_follows (members : List Member) :
    Follows setting (walkMembers setting members) (outlineMembers · members) := by
  cases members with
  | nil => exact .done
  | cons member rest => exact (walkMember_follows member).andThen (walkMembers_follows rest)

lemma walkMember_follows (member : Member) : Follows setting (walkMember setting member) (outlineMember · member) := by
  cases member with
  | signature => exact .done
  | block body span =>
    have statements := walkStmts_follows .nested body
    refine ⟨fun _ => .nested .classMember span (.list _ (statements.walk _)),fun at_ => ?_⟩
    have isMember : ScopeRole.classMember ≠ .loop := nofun
    have function := functionScope_push_self at_.sound isMember span
    refine at_.nested .classMember span .member rfl (fun _ => nofun) fun at₁ =>
      list_traces setting at₁ (fun name listed inner tree current => ?_) statements
    have sound := at₁.sound
    rw [← tree,← current] at function sound
    rw [← current]
    exact walkStmts_knowsBody setting sound nofun function listed
  | field decorators key keyParts initial span =>
    have before := walkExprs_follows keyParts
    cases initial with
    | nil => exact before
    | cons value rest =>
      exact before.andThen ((walkInitial_follows { name := key.text? } (value :: rest) ⟨rfl,rfl⟩
        rfl).nested .classMember span .member rfl rfl)
  | method kind isStatic decorators key keyParts literal span =>
    exact ((walkExprs_follows decorators).andThen (walkExprs_follows keyParts)).andThen
      (walkFunction_follows _ .loose literal rfl ⟨nofun,False.elim⟩ fun _ => rfl)

lemma walkStmts_follows (level : Level) (statements : List Stmt) :
    Follows setting (walkStmts setting level statements) (outlineStmts · level statements) := by
  cases statements with
  | nil => exact .done
  | cons statement rest => exact (walkStmt_follows level statement).andThen (walkStmts_follows level rest)

lemma walkStmt_follows (level : Level) (statement : Stmt) :
    Follows setting (walkStmt setting level statement) (outlineStmt · level statement) := by
  cases statement with
  | expression value span => exact walkExpr_follows {} value Site.plain_default
  | block body span =>
    exact ((walkStmts_follows .nested body).frame fun sound name listed =>
      walkStmts_knows .nested body sound nofun listed).list (starts body)
  | variableDecl kind slots span => exact (Follows.declareAll _ _).andThen (walkSlots_follows slots)
  | function literal =>
    exact walkFunction_follows _ level literal (by cases level <;> rfl)
      (declarationSite_fits False level _) (by rintro rfl; rfl)
  | classDecl literal => exact walkClass_follows _ literal (declarationSite_fits False level _)
  | returns value span => exact walkExprs_follows value
  | loop parts span =>
    exact ((walkStmts_follows .nested parts).frame fun sound name listed =>
      walkStmts_knows .nested parts sound nofun listed).nested .loop span .loop rfl rfl
  | compound parts span => exact walkCompound_follows _ parts
  | case test body span => exact (walkExprs_follows test).andThen ((walkStmts_follows .nested body).list (starts body))
  | handler pattern body span =>
    exact ((walkPatterns_follows pattern).andThen (walkStmt_follows .nested body)).declaring
      (Pattern.namesOfAll pattern)
  | imports locals span =>
    exact ⟨fun _ => Walk.foldl (fun id _ _ => .imports id trivial) _,fun _ =>
      .foldl_aside (fun id _ _ => .imports id) ..⟩
  | exportNames locals exported span =>
    refine ⟨fun builder => walkStmt_free setting level _,fun _ => ?_⟩
    refine .andThen ?_ (.foldl (fun id _ _ => .names .plain id) ..)
    split
    · exact .foldl_aside (fun id _ _ => .exports id) ..
    · exact .done
  | exportDeclaration declaration span => exact walkStmt_follows _ declaration
  | exportDefault value span => exact walkDefault_follows span value
  | enumeration id initials span =>
    have values := walkExprs_follows initials
    cases level with
    | loose => exact values
    | _ => exact ⟨fun builder => walkStmt_free setting _ _,fun _ => .declares _ _⟩
  | reexport => exact .done
  | typeOnly body span =>
    have statements := (walkStmts_follows .nested body).list (starts body)
    cases level with
    | loose => exact statements
    | _ => exact .done
  | ambient body span =>
    have statements := (walkStmts_follows .nested body).list (starts body)
    cases level with
    | exported => exact .done
    | _ => exact statements

lemma walkCompound_follows (alone : Bool) (parts : List Stmt) :
    Follows setting (walkStmts setting .nested parts) (outlineParts · alone parts) := by
  cases parts with
  | nil => exact .done
  | cons part rest =>
    have first := walkStmt_follows .nested part
    have known {builder : Builder} (sound : builder.tree.Sound False builder.current) (name : String)
        (listed : name ∈ if alone then [] else part.lexicalNames .nested) :
        (walkStmt setting .nested part builder).tree.Knows builder.current name := by
      split at listed
      · simp at listed
      · exact walkStmt_knows .nested part sound nofun listed
    cases part with
    | case test body span =>
      exact (first.andThen (walkStmts_follows .nested rest)).frame fun sound name listed =>
        walkStmts_knowsCases .nested _ sound listed
    | _ => exact (first.frame known).andThen (walkCompound_follows alone rest)

lemma walkDefault_follows (statement : Span) (value : Stmt) :
    Follows setting (walkDefault setting statement value) (outlineDefault · value) := by
  cases value with
  | function literal => exact walkFunction_follows _ .exported literal rfl ⟨fun _ => rfl,False.elim⟩ nofun
  | classDecl literal => exact walkClass_follows _ literal ⟨fun _ => rfl,False.elim⟩
  | expression value span => exact walkExpr_follows _ value ⟨rfl,rfl⟩
  | _ => exact .done

end
end Resumable
