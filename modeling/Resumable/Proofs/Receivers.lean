import Resumable.Proofs.Factories
import Resumable.Proofs.LexicalScoping
import Mathlib.Data.List.TakeWhile

/-! Whose `this` and whose `arguments` is meant. Functions, the members of a class and the program have a `this` of
their own; arrow functions, loops and classes do not, so what is evaluated when a class is defined uses the `this`
around it. The analysis opens the scope of a class before it walks that code and takes the class for its owner. -/
namespace Resumable
open Script List Scoping Option Builder
variable {reference : Reference} {id : ClosureIndex} {closure : Closure} {scope : Scope} {α : Type} {owner : ScopeIndex}

/-! ### The rule of the language -/

namespace Construct

/-- Whether code that stands in a construct directly has a `this` of its own. What stands in a class
directly is its head: its decorators, its base, and the decorators and keys of its members. -/
def bindsThis : Construct → Bool
  | .program | .function _ | .member => true
  | .arrow _ | .classLiteral _ | .loop => false

def isFunction : Construct → Bool
  | .function _ => true
  | _ => false

def isClass : Construct → Bool
  | .classLiteral _ => true
  | _ => false

end Construct

namespace Outline

def around (outline : Outline) : Nat → ScopeIndex → List ScopeIndex
  | 0, _ => []
  | fuel + 1, s =>
    match outline.openings[s]? with
    | some opening =>
      match opening.outside with
      | some place => s :: outline.around fuel place.scope
      | none => [s]
    | none => []

/-- A scope and those around it. Each is opened before the one inside it. -/
def enclosing (outline : Outline) (s : ScopeIndex) : List ScopeIndex := outline.around (s + 1) s

def opensWith (outline : Outline) (sort : Construct → Bool) (s : ScopeIndex) : Bool :=
  (outline.openings[s]?).any fun opening => sort opening.construct

def thisBinder (outline : Outline) (s : ScopeIndex) : Option ScopeIndex :=
  (outline.enclosing s).find? (outline.opensWith Construct.bindsThis)

/-- The function whose `arguments` is meant in a scope. In a member of a class that is no method there is
none. -/
def argumentsBinder (outline : Outline) (s : ScopeIndex) : Option ScopeIndex :=
  (outline.thisBinder s).filter (outline.opensWith Construct.isFunction)

/-- The class whose head a scope is part of, with nothing but arrow functions and loops in between. -/
def headOf (outline : Outline) (s : ScopeIndex) : Option ScopeIndex :=
  ((outline.enclosing s).find? fun s => outline.opensWith Construct.bindsThis s ||
    outline.opensWith Construct.isClass s).filter (outline.opensWith Construct.isClass)

end Outline

/-! ### The rule of the analysis -/

namespace Scoping

/-- The nearest scope that is neither an arrow function nor a loop. -/
def receiver? (tree : Scoping) (s : ScopeIndex) : Option ScopeIndex :=
  (tree.chain s).find? fun id => (tree.kindOf id).bindsThis

variable {tree other : Scoping} {s : ScopeIndex}

lemma ownerOfArguments_eq (tree : Scoping) (s : ScopeIndex) :
    tree.ownerOfArguments s = (tree.receiver? s).filter fun id => (tree.kindOf id).isFunction := by
  have passed : (fun id => tree.kindOf id == .arrow || tree.kindOf id == .loop) =
      fun id => !(tree.kindOf id).bindsThis := by
    funext id
    cases tree.kindOf id <;> rfl
  have isFunction (id : ScopeIndex) : (tree.kindOf id == .function || tree.kindOf id == .method) =
      (tree.kindOf id).isFunction := by
    cases tree.kindOf id <;> rfl
  rw [receiver?,find?_eq_head?_dropWhile_not,ownerOfArguments,passed]
  cases (tree.chain s).dropWhile fun id => !(tree.kindOf id).bindsThis with
  | nil => rfl
  | cons owner rest => simp only [isFunction,head?_cons,filter_some]

/-- How a reference is attributed: `this` to the receiver, and a free `arguments` to the receiver if that is a
function. -/
def Attributes (tree : Scoping) (reference : Reference) : Prop :=
  match reference.mention with
  | .this owner => tree.receiver? reference.scope = some owner
  | .arguments owner => tree.ownerOfArguments reference.scope = some owner
  | .identifier name => name = "arguments" → (tree.resolve reference.scope name).isSome ∨
      tree.ownerOfArguments reference.scope = none

/-- A tree in which `this` and `arguments` are attributed to the receivers of the scopes that they are
used in. -/
structure Attributed (tree : Scoping) : Prop where
  parented : tree.Parented
  rooted : ∀ {s scope}, tree.scope? s = some scope → scope.parent = none → s = root
  owners : ∀ {s scope}, tree.scope? s = some scope → tree.receiver? s = some scope.thisOwner
  references : ∀ {s reference}, reference ∈ tree.referencesIn s →
    reference.scope < tree.scopes.length ∧ tree.Attributes reference

lemma Grows.receiver?_eq (later : tree.Grows other) (parented : tree.Parented) (parented' : other.Parented)
    (inside : s < tree.scopes.length) : other.receiver? s = tree.receiver? s := by
  rw [receiver?,receiver?,later.chain_eq parented parented' inside]
  refine find?_congr fun id around => ?_
  obtain ⟨scope,found⟩ := scope?_of_mem_chain parented around
  rw [later.kindOf (lt_of_scope? found)]

lemma isSome_resolve_iff : (tree.resolve s name).isSome ↔ ∃ id ∈ tree.chain s, tree.Knows id name := by
  simp only [resolve,findSome?_isSome_iff,knows_iff_resolveIn]

lemma Attributes.mono (attributes : tree.Attributes reference) (later : tree.Grows other)
    (parented : tree.Parented) (parented' : other.Parented) (inside : reference.scope < tree.scopes.length) :
    other.Attributes reference := by
  have chain := later.chain_eq parented parented' inside
  have receiver := later.receiver?_eq parented parented' inside
  have owner : other.ownerOfArguments reference.scope = tree.ownerOfArguments reference.scope := by
    rw [ownerOfArguments_eq,ownerOfArguments_eq,receiver]
    cases found : tree.receiver? reference.scope with
    | none => rfl
    | some id =>
      obtain ⟨scope, entry⟩ := scope?_of_mem_chain parented (mem_of_find?_eq_some found)
      simp only [filter_some,later.kindOf (lt_of_scope? entry)]
  unfold Attributes at attributes ⊢
  cases mention : reference.mention with
  | this => simpa only [mention,receiver] using attributes
  | arguments => simpa only [mention,owner] using attributes
  | identifier name =>
    simp only [mention,owner] at attributes ⊢
    refine fun named => (attributes named).imp_left fun resolved => ?_
    obtain ⟨id,around,knows⟩ := isSome_resolve_iff.1 resolved
    exact isSome_resolve_iff.2 ⟨id,chain ▸ around,knows.mono later⟩

variable (attributed : tree.Attributed)
include attributed

lemma Attributed.of_grows (later : tree.Grows other) (length : other.scopes.length = tree.scopes.length)
    (references : ∀ {s reference}, reference ∈ other.referencesIn s → (∃ around, reference ∈ tree.referencesIn around) ∨
        reference.scope < tree.scopes.length ∧ tree.Attributes reference) : other.Attributed := by
  have parented : other.Parented := by
    intro s parent scope found up
    obtain ⟨before, entry,same⟩ := later.earlier length found
    exact attributed.parented entry (same.parent.symm.trans up)
  refine ⟨parented,fun found up => ?_,fun found => ?_,fun {s reference} member => ?_⟩
  · obtain ⟨before, entry,same⟩ := later.earlier length found
    exact attributed.rooted entry (same.parent.symm.trans up)
  · obtain ⟨before, entry,same⟩ := later.earlier length found
    rw [later.receiver?_eq attributed.parented parented (lt_of_scope? entry),same.thisOwner]
    exact attributed.owners entry
  · have ⟨inside,attributes⟩ : reference.scope < tree.scopes.length ∧ tree.Attributes reference :=
      (references member).elim (fun ⟨_,old⟩ => attributed.references old) fun new => new
    exact ⟨length ▸ inside,attributes.mono later attributed.parented parented inside⟩

lemma Attributed.openScope (kind : ScopeRole) (inside : parent < tree.scopes.length) (owner : Span) :
    (tree.openScope kind parent owner).2.Attributed := by
  have later := (openScope_extends tree kind parent owner).grows
  have parented := attributed.parented.openScope inside kind owner
  refine ⟨parented,fun {s scope} found up => ?_,fun {s scope} found => ?_, fun {s reference} member => ?_⟩
  · rcases scope?_openScope_cases found with ⟨-,rfl⟩ | ⟨before,_, entry,rfl⟩
    · cases up
    · exact attributed.rooted entry up
  · rcases scope?_openScope_cases found with ⟨rfl,rfl⟩ | ⟨before,_, entry,rfl⟩
    · have kindOf : (tree.openScope kind parent owner).2.kindOf tree.scopes.length = kind := by simp [kindOf,found]
      obtain ⟨around, entry⟩ := scope?_of_lt inside
      rw [receiver?,chain_of_parent parented found rfl,find?_cons,kindOf]
      cases kind.bindsThis with
      | true => rfl
      | false =>
        rw [entry]
        exact (later.receiver?_eq attributed.parented parented inside).trans (attributed.owners entry :)
    · rw [later.receiver?_eq attributed.parented parented (lt_of_scope? entry)]
      exact (attributed.owners entry :)
  · obtain ⟨scope,found,listed⟩ := mem_referencesIn.1 member
    rcases scope?_openScope_cases found with ⟨-,rfl⟩ | ⟨before,_, entry,rfl⟩
    · cases listed
    · obtain ⟨low,attributes⟩ := attributed.references (mem_referencesIn.2 ⟨before, entry,listed⟩)
      exact ⟨low.trans_le later.length_le, attributes.mono later attributed.parented parented low⟩

lemma Attributed.passUp (id : ScopeIndex) : (tree.passUp id).Attributed := by
  refine attributed.of_grows (passUp_extends id).grows (length_passUp id) fun {s reference} member => ?_
  obtain ⟨scope,found,listed⟩ := mem_referencesIn.1 member
  unfold Scoping.passUp at found
  split at found
  · rename_i inner innerFound
    split at found
    · obtain ⟨before, entry,rfl⟩ := exists_of_scope?_updateScope found
      split at listed
      · rcases mem_append.1 listed with old | passed
        · exact .inl ⟨s,mem_referencesIn.2 ⟨before, entry,old⟩⟩
        · exact .inl ⟨id,mem_referencesIn.2 ⟨inner,innerFound,passed⟩⟩
      · exact .inl ⟨s,mem_referencesIn.2 ⟨before, entry,listed⟩⟩
    · exact .inl ⟨s,mem_referencesIn.2 ⟨scope,found,listed⟩⟩
  · exact .inl ⟨s,mem_referencesIn.2 ⟨scope,found,listed⟩⟩

end Scoping

/-! ### What the walk attributes -/

section
variable {place : Spot} {builder later : Builder} {outline after : Outline}

lemma attributed_record (attributed : builder.tree.Attributed) (position : Position) (span : Span)
    (inside : builder.current < builder.tree.scopes.length) (reads : builder.Reads name mention) :
    (builder.record mention position span).tree.Attributed := by
  refine attributed.of_grows (record_extends ..).grows (length_updateScope ..) fun {s reference} member => ?_
  by_cases here : builder.current = s
  · subst here
    rw [record,addReference, referencesIn_updateScope_append (fun _ => rfl) inside] at member
    rcases mem_append.1 member with old | new
    · exact .inl ⟨_,old⟩
    obtain rfl := mem_singleton.1 new
    refine .inr ⟨inside,?_⟩
    cases mention with
    | this owner =>
      obtain ⟨scope,found⟩ := scope?_of_lt inside
      exact (attributed.owners found).trans (congrArg some (by rw [reads.2,found]; rfl))
    | identifier | arguments => exact reads.2
  · rw [record,addReference,referencesIn_updateScope_ne _ here] at member
    exact .inl ⟨s,member⟩

lemma Trace.attributed (trace : Trace setting place builder outline later after)
    (linked : Linked builder.tree outline) (here : builder.current = place.scope)
    (inside : builder.current < builder.tree.scopes.length) (attributed : builder.tree.Attributed) :
    later.tree.Attributed := by
  induction trace with
  | andThen first second one two =>
    have stays := first.stays linked here
    exact two stays.linked (stays.current.trans here)
      (stays.current ▸ inside.trans_le first.grows.length_le) (one linked here inside attributed)
  | aside aside => exact attributed.of_grows aside.grows aside.length fun member => .inl ⟨_,aside.references _ ▸ member⟩
  | uses position span reads => exact attributed_record attributed position span inside reads
  | frame _ _ _ ih => exact ih ⟨linked.counted,linked.parents⟩ here inside attributed
  | nested kind owner construct _ _ _ ih =>
    exact (ih (linked.push here kind owner construct) linked.counted
      (by rw [length_push]; exact Nat.lt_succ_self _) (attributed.openScope kind inside owner)).passUp _

end

/-! ### Both rules side by side -/

def Scoping.Opened (tree : Scoping) (outline : Outline) : Prop :=
  ∀ ⦃s : ScopeIndex⦄ ⦃opening : Opening⦄, outline.openings[s]? = some opening →
    opening.construct.opens (tree.kindOf s) = true

section
variable {place : Spot} {builder later : Builder} {tree other : Scoping} {outline after : Outline}

section
variable (opened : tree.Opened outline) (linked : Linked tree outline)
include opened linked

lemma Scoping.Opened.mono (grows : tree.Grows other) : other.Opened outline := by
  intro s opening found
  have inside : s < tree.scopes.length := linked.counted ▸ (List.getElem?_eq_some_iff.1 found).1
  rw [grows.kindOf inside]
  exact opened found

lemma Scoping.Opened.openScope (opens : construct.opens kind = true) (owner : Span) :
    (tree.openScope kind place.scope owner).2.Opened (outline.addOpening place construct) := by
  intro s opening found
  rcases getElem?_concat_cases found with old | ⟨rfl,rfl⟩
  · exact opened.mono linked (openScope_extends ..).grows old
  · have isKind : (tree.openScope kind place.scope owner).2.kindOf outline.openings.length = kind := by
      simp [Scoping.openScope,Scoping.kindOf,Scoping.scope?,← linked.counted]
    rwa [isKind]

end

lemma Trace.opened (trace : Trace setting place builder outline later after)
    (linked : Linked builder.tree outline) (here : builder.current = place.scope)
    (opened : builder.tree.Opened outline) : later.tree.Opened after := by
  induction trace with
  | andThen first _ one two =>
    have stays := first.stays linked here
    exact two stays.linked (stays.current.trans here) (one linked here opened)
  | aside aside => exact opened.mono linked aside.grows
  | uses => exact opened.mono linked (record_extends ..).grows
  | frame _ _ _ ih => exact ih ⟨linked.counted,linked.parents⟩ here opened
  | nested kind owner construct opens _ trace ih =>
    have entered := linked.push here kind owner construct
    have inner := ih entered linked.counted (by
      rw [push,here]
      exact opened.openScope linked opens owner)
    exact inner.mono (trace.stays entered linked.counted).linked (passUp_extends _).grows

variable {s inner : ScopeIndex}

lemma Scoping.Opened.sorts (opened : tree.Opened outline) (linked : Linked tree outline)
    (found : tree.scope? s = some scope) :
    (tree.kindOf s).bindsThis = (outline.opensWith Construct.bindsThis s || outline.opensWith Construct.isClass s) ∧
      (tree.kindOf s).isFunction = outline.opensWith Construct.isFunction s ∧
      (outline.opensWith Construct.isClass s = true → tree.kindOf s = .classBody) := by
  have inside : s < outline.openings.length := linked.counted ▸ lt_of_scope? found
  obtain ⟨opening, entry⟩ : ∃ opening, outline.openings[s]? = some opening := ⟨_,getElem?_eq_getElem inside⟩
  have opens := opened entry
  simp only [Outline.opensWith, entry,any_some]
  generalize tree.kindOf s = role at opens ⊢
  generalize opening.construct = construct at opens ⊢
  cases construct <;> cases role <;> cases opens <;>
    simp [ScopeRole.bindsThis,ScopeRole.isFunction,Construct.bindsThis,Construct.isFunction, Construct.isClass]

section
variable (parented : tree.Parented) (linked : Linked tree outline) (opened : tree.Opened outline) (s : ScopeIndex)
include parented linked opened

end

section
variable (parented : tree.Parented) (receiver : tree.receiver? s = some owner) (around : inner ∈ tree.chain s)
  (outside : inner ∉ tree.chain owner)
include parented receiver around outside

lemma receiver?_passed : tree.receiver? inner = some owner := by
  revert receiver
  refine parented.within around (fun _ _ receiver => receiver) fun found up further ih receiver => ?_
  have chain := chain_of_parent parented found up
  rw [receiver?,chain,find?_cons] at receiver
  split at receiver
  · cases receiver
    exact absurd (chain ▸ mem_cons_of_mem _ further) outside
  · exact ih receiver

end
end

/-! ### Programs -/

variable {tree other : Scoping}

lemma Scoping.attributed_ofProgram (span : Span) : (ofProgram span).Attributed := by
  have only {s : ScopeIndex} {scope : Scope} (found : (ofProgram span).scope? s = some scope) :
      s = root ∧ scope = { kind := .program, parent := none, owner := span, thisOwner := root } := by
    cases s with
    | zero => exact ⟨rfl,(some.inj found).symm⟩
    | succ s => cases found
  have sound : (ofProgram span).Sound False root := ofProgram_sound span
  refine ⟨sound.parented,fun found _ => (only found).1,fun found => ?_,fun member => ?_⟩
  · obtain ⟨rfl,rfl⟩ := only found
    rfl
  · obtain ⟨scope,found,listed⟩ := mem_referencesIn.1 member
    obtain ⟨-,rfl⟩ := only found
    cases listed

section
variable (setting : Selecting) (program : Program)

lemma analyze_attributed : (analyze setting program).tree.bindAll.Attributed := by
  obtain ⟨walked,trace,is⟩ := analyze_traces setting program
  have attributed := trace.attributed (linked_start _) rfl Nat.zero_lt_one (attributed_ofProgram program.span)
  rw [is] at attributed
  have same := bindAll_bare (analyze setting program).tree
  exact attributed.of_grows (grows_of_bare_eq same) (length_of_bare_eq same)
    fun member => .inl ⟨_,referencesIn_congr same _ ▸ member⟩

end

/-- What a use of `this` or `arguments` is recorded as. -/
structure Reference.Takes (tree : Scoping) (outline : Outline) (reference : Reference) (use : Use) : Prop
    extends reference.StandsAt use where
  /-- In the head of a class `this` is taken for that of the class. -/
  this : use.name = none → ∃ owner, reference.mention = .this owner ∧
    (outline.headOf use.place.scope).or (outline.thisBinder use.place.scope) = some owner
  /-- What is not taken for the `arguments` of a function stays a variable, and does so in the head of a
  class whatever is around the class. -/
  arguments : use.name = some "arguments" →
    (∃ owner, reference.mention = .arguments owner ∧ outline.headOf use.place.scope = none ∧
      outline.argumentsBinder use.place.scope = some owner) ∨
    reference.mention = .identifier "arguments" ∧
      ((tree.resolve use.place.scope "arguments").isSome ∨ (outline.headOf use.place.scope).isSome ∨
        outline.argumentsBinder use.place.scope = none)
  others : ∀ name, use.name = some name → name ≠ "arguments" → reference.mention = .identifier name

section
variable (setting : Selecting) (program : Program) {s : ScopeIndex} {use : Use}

section
variable (listed : reference ∈ (analyze setting program).tree.bindAll.referencesIn s)
include listed

end

section
variable (found : (analyze setting program).tree.bindAll.closure? id = some closure)
include found

end
end

end Resumable
