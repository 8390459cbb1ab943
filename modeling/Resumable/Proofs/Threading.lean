import Resumable.Proofs.Guarding
import Resumable.Proofs.Receivers

/-! What the parameters of a closure stand for. References that lead out of a closure and denote the same get one
parameter, others get different ones, as long as no variable is spelled like the parameter that passes `this` or
`arguments` on. -/
namespace Resumable
open Script Option

/-! ### What a reference denotes -/

inductive Denoted where
  | variable (name : String) (resolution : Resolution)
  | this (owner : ScopeIndex)
  | arguments (owner : ScopeIndex)
  deriving DecidableEq, Repr

def Binding.isThreaded (binding : Binding) : Bool :=
  match binding.arg with
  | .this _ | .arguments _ => true
  | _ => false

namespace Scoping

def denoted? (tree : Scoping) (reference : Reference) : Option Denoted :=
  match reference.mention with
  | .identifier name => (tree.resolve reference.scope name).map (.variable name)
  | .this owner => some (.this owner)
  | .arguments owner => some (.arguments owner)

variable {tree : Scoping} {i : ClosureIndex} {closure : Closure} {first second : Reference} {a b : Binding}

def bindingFor (tree : Scoping) : Denoted → Binding
  | .variable name ⟨scope,.declaration⟩ => ⟨name,.identifier name,scope⟩
  | .variable name ⟨scope,.closure other⟩ => ⟨name,.closure other,scope⟩
  | .this owner => ⟨Naming.thisName (tree.startOf owner),.this owner,owner⟩
  | .arguments owner => ⟨Naming.argumentsName (tree.startOf owner),.arguments owner,owner⟩

lemma bindingFor_injective (tree : Scoping) : Function.Injective tree.bindingFor := by
  rintro (⟨name,scope,_ | other⟩ | owner | owner) (⟨name',scope',_ | other'⟩ | owner' | owner') same <;>
    simp only [bindingFor,Binding.mk.injEq,reduceCtorEq,false_and,and_false,Capture.identifier.injEq,
      Capture.closure.injEq,Capture.this.injEq,Capture.arguments.injEq] at same <;>
    simp [same]

lemma Origin.denotes (origin : tree.Origin i closure first a) :
    ∃ denoted, tree.denoted? first = some denoted ∧ tree.bindingFor denoted = a := by
  cases origin with
  | @declared name resolution mention found target =>
    obtain ⟨scope,referent⟩ := resolution
    obtain rfl : referent = .declaration := target
    exact ⟨.variable name ⟨scope,.declaration⟩,by simp [denoted?,mention,found],rfl⟩
  | @closure name resolution other mention found target =>
    obtain ⟨scope,referent⟩ := resolution
    obtain rfl : referent = .closure other := target
    exact ⟨.variable name ⟨scope,.closure other⟩,by simp [denoted?,mention,found],rfl⟩
  | this mention => exact ⟨.this _,by simp [denoted?,mention],rfl⟩
  | arguments mention => exact ⟨.arguments _,by simp [denoted?,mention],rfl⟩

lemma Origin.eq_iff (one : tree.Origin i closure first a) (two : tree.Origin i closure second b) :
    a = b ↔ tree.denoted? first = tree.denoted? second := by
  obtain ⟨denoted,isFirst,rfl⟩ := one.denotes
  obtain ⟨other,isSecond,rfl⟩ := two.denotes
  rw [isFirst,isSecond,some.injEq]
  exact (bindingFor_injective tree).eq_iff

lemma Origin.variable (origin : tree.Origin i closure first a) (plain : a.isThreaded = false) :
    ∃ resolution, first.mention = .identifier a.param ∧ tree.resolve first.scope a.param = some resolution ∧
      closure.scope ∉ tree.chain resolution.scope := by
  cases origin with
  | declared mention found _ _ outside | closure mention found _ _ outside => exact ⟨_,mention,found,outside⟩
  | this | arguments => cases plain

lemma thisName_ne_argumentsName (m n : Nat) : Naming.thisName m ≠ Naming.argumentsName n := by
  intro same
  have chars := congrArg String.toList same
  simp [Naming.thisName,Naming.argumentsName,String.toList_append] at chars

lemma Origin.threaded (attributed : tree.Attributed) (origin : tree.Origin i closure first a)
    (sound : tree.Sound False root) (listed : first ∈ tree.referencesIn closure.scope)
    (threaded : a.isThreaded = true) :
    ∃ owner, tree.receiver? closure.scope = some owner ∧
      (a = tree.bindingFor (.this owner) ∨ a = tree.bindingFor (.arguments owner)) := by
  obtain ⟨scope,found,member⟩ := mem_referencesIn.1 listed
  have around := (sound.made found member).1
  have attributes := (attributed.references listed).2
  unfold Attributes at attributes
  cases origin with
  | declared => cases threaded
  | closure => cases threaded
  | @this owner mention inner outside =>
    rw [mention] at attributes
    exact ⟨owner,receiver?_passed attributed.parented attributes around outside,.inl rfl⟩
  | @arguments owner mention outside =>
    simp only [mention,ownerOfArguments_eq,filter_eq_some_iff] at attributes
    exact ⟨owner,receiver?_passed attributed.parented attributes.1 around outside,.inr rfl⟩

lemma Origin.apart (attributed : tree.Attributed) (sound : tree.Sound False root)
    (found : tree.closure? i = some closure)
    (listed : first ∈ tree.referencesIn closure.scope) (one : tree.Origin i closure first a)
    (listed' : second ∈ tree.referencesIn closure.scope) (two : tree.Origin i closure second b)
    (same : a.param = b.param) : a = b ∨ a.isThreaded ≠ b.isThreaded := by
  cases kind : a.isThreaded with
  | true =>
    cases kind' : b.isThreaded with
    | false => exact .inr nofun
    | true =>
      obtain ⟨owner,own,is⟩ := one.threaded attributed sound listed kind
      obtain ⟨other,own',is'⟩ := two.threaded attributed sound listed' kind'
      obtain rfl := some.inj (own.symm.trans own')
      refine .inl ?_
      rcases is with rfl | rfl <;> rcases is' with rfl | rfl
      · rfl
      · exact absurd same (thisName_ne_argumentsName _ _)
      · exact absurd same.symm (thisName_ne_argumentsName _ _)
      · rfl
  | false =>
    cases kind' : b.isThreaded with
    | true => exact .inr nofun
    | false =>
      obtain ⟨resolution,mention,resolves,outside⟩ := one.variable kind
      obtain ⟨resolution',mention',resolves',outside'⟩ := two.variable kind'
      obtain ⟨own, entry,-,up⟩ := sound.owned found
      have around {reference : Reference} (listed : reference ∈ tree.referencesIn closure.scope) :
          closure.scope ∈ tree.chain reference.scope := by
        obtain ⟨scope, entry,member⟩ := mem_referencesIn.1 listed
        exact (sound.made entry member).1
      -- both are found from the scope around the closure
      have outer := resolve_parent resolves sound.parented (around listed) entry up outside
      have outer' := resolve_parent resolves' sound.parented (around listed') entry up outside'
      rw [← same] at outer' mention' resolves'
      obtain rfl := some.inj (outer.symm.trans outer')
      refine .inl ((one.eq_iff two).2 ?_)
      simp [denoted?,mention,mention',resolves,resolves']

end Scoping

/-! ### Names that a program binds -/

/-- A scope declares its variables, and the functions and classes in it that become closures. -/
def Scoping.Declares (tree : Scoping) (s : ScopeIndex) (name : String) : Prop :=
  ∃ scope, tree.scope? s = some scope ∧ (name ∈ scope.declarations ∨
    ∃ i closure, (name, i) ∈ scope.exports ∧ tree.closure? i = some closure ∧
      closure.context.introducesItself = true ∧ closure.hasOwnName = true)

section
variable (setting : Selecting) (program : Program) {closure : Closure} {i : ClosureIndex} {s : ScopeIndex}
  {name : String} {reference : Reference} {binding : Binding}

lemma own_mem_binds (listed : closure ∈ (analyze setting program).tree.bindAll.closures)
    (own : closure.hasOwnName = true) : ∃ name ∈ program.binds, closure.name = some name := by
  obtain ⟨lists,site,candidate,⟨binds,-⟩,-,named,isOwn,-⟩ := allowed_closure listed
  obtain ⟨name,is⟩ := isSome_iff_exists.1 (isOwn.symm.trans own)
  refine ⟨name,Program.mem_binds.2 (binds name is),?_⟩
  rw [named,is,some_or]

lemma declarations_bind (found : (analyze setting program).tree.bindAll.scope? s = some scope)
    (declared : name ∈ scope.declarations) : name ∈ program.binds :=
  Program.mem_binds.2 (allowed_scope found name declared)

lemma boundName_cases (listed : closure ∈ (analyze setting program).tree.bindAll.closures) :
    closure.boundName ∈ program.binds ∨ closure.boundName = closure.exportName := by
  unfold Closure.boundName
  split
  · rename_i introduces
    cases own : closure.hasOwnName with
    | true =>
      obtain ⟨name,binds,is⟩ := own_mem_binds setting program listed own
      exact .inl (by simpa [is] using binds)
    | false =>
      obtain ⟨walked,is,names⟩ := analyze_names setting program
      obtain ⟨i,found⟩ := List.mem_iff_getElem?.1 listed
      obtain ⟨bindings,self, entry⟩ := Scoping.capturing_of_bare_eq (Scoping.bindAll_bare _) found
      have unnamed := names.unnamed (closure.capturing bindings self) (is ▸ List.mem_of_getElem? entry) introduces own
      rw [show closure.name = none from unnamed]
      exact .inr rfl
  · exact .inr rfl

lemma Scoping.Declares.binds (declares : (analyze setting program).tree.bindAll.Declares s name) :
    name ∈ program.binds := by
  have sound := analyze_bindAll_sound setting program
  obtain ⟨scope,found,declared | ⟨i,closure,exported, entry,introduces,own⟩⟩ := declares
  · exact declarations_bind setting program found declared
  obtain ⟨same, sameEntry,-,is⟩ := sound.exported found exported
  cases entry.symm.trans sameEntry
  obtain ⟨other,binds,named⟩ := own_mem_binds setting program (List.mem_of_getElem? entry) own
  rw [← is,Closure.boundName,if_pos introduces,named]
  exact binds

section
variable (origin : (analyze setting program).tree.bindAll.Origin i closure reference binding)
include origin

lemma captured_name (plain : binding.isThreaded = false) : binding.param ∈ program.binds ∨
    binding.param ∈ (analyze setting program).tree.bindAll.closures.map Closure.exportName := by
  have sound := analyze_bindAll_sound setting program
  cases origin with
  | @declared name resolution mention found target =>
    have here := Scoping.resolveIn_of_resolve found
    unfold Scoping.resolveIn at here
    split at here
    · rename_i scope entry
      split at here
      · rename_i declared
        exact .inl (declarations_bind setting program entry (by simpa using declared))
      · obtain ⟨other,-,is⟩ := Option.map_eq_some_iff.1 here
        rw [← is] at target
        cases target
    · cases here
  | @closure name resolution other mention found target =>
    obtain ⟨captured, entry,-,is⟩ := sound.boundName_of_resolve found target
    have listed := List.mem_of_getElem? entry
    rcases boundName_cases setting program listed with own | exported
    · exact .inl (is ▸ own)
    · refine .inr (List.mem_map.2 ⟨captured,listed,?_⟩)
      exact exported.symm.trans is
  | this => cases plain
  | arguments => cases plain

lemma binding_of_variable (listed : reference ∈ (analyze setting program).tree.bindAll.referencesIn closure.scope)
    (plain : binding.isThreaded = false) (used : use ∈ program.outline.uses) (stands : reference.StandsAt use) :
    ∃ opening around, program.outline.openings[closure.scope]? = some opening ∧
    opening.outside = some around ∧ use.place.binding binding.param = around.binding binding.param := by
  have fits := analyze_matches setting program
  have sound := analyze_bindAll_sound setting program
  obtain ⟨resolution,-,resolves,outside⟩ := origin.variable plain
  obtain ⟨scope, entry,member⟩ := Scoping.mem_referencesIn.1 listed
  have around := (sound.made entry member).1
  rw [stands.scope] at resolves around
  obtain ⟨opening,site,opened,isOutside,-,bound⟩ :=
    fits.binding_outside (fits.aligned.used use used) around resolves outside
  exact ⟨opening,site,opened,isOutside,bound⟩

end

end

/-- How the parameters of a closure stand for what its references denote. -/
structure Closure.TellsApart (program : Program) (tree : Scoping) (i : ClosureIndex) (closure : Closure) :
    Prop where
  once : closure.params.Nodup
  /-- References get one binding exactly if they denote the same. A variable denotes the same from both,
  by the scoping of the language too. -/
  same : ∀ first ∈ tree.referencesIn closure.scope, ∀ second ∈ tree.referencesIn closure.scope, ∀ a b,
    tree.demand i closure first = .binding a → tree.demand i closure second = .binding b →
    (a = b ↔ tree.denoted? first = tree.denoted? second) ∧
    (a = b → a.isThreaded = false → ∀ use ∈ program.outline.uses, first.StandsAt use →
      ∀ other ∈ program.outline.uses, second.StandsAt other → use.place.binding a.param = other.place.binding a.param)
  /-- Bindings that differ have different parameters, unless a variable is spelled like a parameter that
  passes `this` or `arguments` on. -/
  apart : ∀ first ∈ tree.referencesIn closure.scope, ∀ second ∈ tree.referencesIn closure.scope, ∀ a b,
    tree.demand i closure first = .binding a → tree.demand i closure second = .binding b →
    a.param = b.param → a = b ∨ a.isThreaded ≠ b.isThreaded ∧
      (a.param ∈ program.binds ∨ a.param ∈ tree.closures.map Closure.exportName)
  /-- What is asked for is given, unless it goes by the parameter of such a variable. -/
  given : ∀ reference ∈ tree.referencesIn closure.scope, ∀ a,
    tree.demand i closure reference = .binding a → a ∈ closure.bindings ∨
      ∃ b ∈ closure.bindings, b.param = a.param ∧ b.isThreaded ≠ a.isThreaded
  /-- What hides a parameter that passes `this` or `arguments` on is a name that the program binds. -/
  hidden : ∀ reference ∈ tree.referencesIn closure.scope, ∀ a,
    tree.demand i closure reference = .binding a → a.isThreaded = true →
    ∀ s ∈ tree.chain reference.scope, closure.scope ∈ tree.chain s → tree.Declares s a.param → a.param ∈ program.binds

theorem parameters_tell_apart (setting : Selecting) (program : Program) (i : ClosureIndex)
    (closure : Closure) (found : (analyze setting program).tree.bindAll.closure? i = some closure) :
    closure.TellsApart program (analyze setting program).tree.bindAll i := by
  have attributed := analyze_attributed setting program
  have sound := analyze_bindAll_sound setting program
  have bound := Scoping.bound_bindAll found
  have apart {first second : Reference} {a b : Binding}
      (listed : first ∈ (analyze setting program).tree.bindAll.referencesIn closure.scope)
      (listed' : second ∈ (analyze setting program).tree.bindAll.referencesIn closure.scope)
      (asks : (analyze setting program).tree.bindAll.demand i closure first = .binding a)
      (asks' : (analyze setting program).tree.bindAll.demand i closure second = .binding b)
      (same : a.param = b.param) : a = b ∨ a.isThreaded ≠ b.isThreaded :=
    (Scoping.origin_of_demand asks).apart attributed sound found listed listed'
      (Scoping.origin_of_demand asks') same
  constructor
  · exact bound.once
  · intro first listed second listed' a b asks asks'
    refine ⟨(Scoping.origin_of_demand asks).eq_iff (Scoping.origin_of_demand asks'), ?_⟩
    rintro rfl plain use used stands other used' stands'
    obtain ⟨opening, around, opened, outside, here⟩ := binding_of_variable setting program
      (Scoping.origin_of_demand asks) listed plain used stands
    obtain ⟨opening', around', opened', outside', here'⟩ := binding_of_variable setting program
      (Scoping.origin_of_demand asks') listed' plain used' stands'
    cases opened.symm.trans opened'
    cases outside.symm.trans outside'
    rw [here, here']
  · intro first listed second listed' a b asks asks' same
    refine (apart listed listed' asks asks' same).imp_right fun differ => ⟨differ, ?_⟩
    -- one of the two is a variable
    cases kind : a.isThreaded with
    | false => exact captured_name setting program (Scoping.origin_of_demand asks) kind
    | true =>
      have plain : b.isThreaded = false := by simpa [kind] using differ
      rw [same]
      exact captured_name setting program (Scoping.origin_of_demand asks') plain
  · intro reference listed a asks
    obtain ⟨b, member, same⟩ := List.mem_map.1 (bound.given reference listed a asks)
    obtain ⟨other, listed', asks'⟩ := bound.asked b member
    rcases apart listed' listed asks' asks same with rfl | differ
    · exact .inl member
    · exact .inr ⟨b, member, same, differ⟩
  · intro reference listed a asks threaded s inside around declares
    exact declares.binds setting program

/-- `function f(this_0) { return () => [this_0, this]; }` -/
def sharedParameter : Program where
  span := ⟨0,51⟩
  body := [.function (.mk { span := ⟨0,51⟩, name := some ⟨"f",⟨9,10⟩⟩, paramsStart := 10 }
    [.slot [] (.bind ⟨"this_0",⟨11,17⟩⟩) []]
    [.returns [.arrow (.mk { span := ⟨28,48⟩, paramsStart := 28 } []
      [.returns [.node .array ⟨34,48⟩ [.name ⟨"this_0",⟨35,41⟩⟩,.thisValue ⟨43,47⟩]] ⟨34,48⟩])]
      ⟨21,49⟩])]

/-- `function f() { return (this_0) => [this_0, this]; }` -/
def hiddenParameter : Program where
  span := ⟨0,51⟩
  body := [.function (.mk { span := ⟨0,51⟩, name := some ⟨"f",⟨9,10⟩⟩, paramsStart := 10 } []
    [.returns [.arrow (.mk { span := ⟨22,48⟩, paramsStart := 22 } [.slot [] (.bind ⟨"this_0",⟨23,29⟩⟩) []]
      [.returns [.node .array ⟨34,48⟩ [.name ⟨"this_0",⟨35,41⟩⟩,.thisValue ⟨43,47⟩]] ⟨34,48⟩])]
      ⟨15,49⟩])]

theorem sharedParameter_tells_apart :
    let setting : Selecting := { source := [], selects := fun _ => true }
    let tree := (analyze setting sharedParameter).tree.bindAll
    ∃ closure, tree.closure? 1 = some closure ∧ closure.kind = .arrow ∧
      closure.TellsApart sharedParameter tree 1 := by
  intro setting tree
  have arrow : (tree.closure? 1).map Closure.kind = some .arrow := by decide +kernel
  obtain ⟨closure, found, kind⟩ := Option.map_eq_some_iff.1 arrow
  exact ⟨closure, found, kind, parameters_tell_apart setting sharedParameter 1 closure found⟩

/-- A variable and `this` share a parameter; and the parameter that passes `this` on is hidden by the one
of the arrow function itself. -/
theorem this_meets_its_spelling :
    let setting : Selecting := { source := [], selects := fun _ => true }
    let shared := (analyze setting sharedParameter).tree.bindAll
    let hidden := (analyze setting hiddenParameter).tree.bindAll
    (∃ closure ∈ shared.closures, closure.scope = 2 ∧ closure.params = ["this_0"] ∧
      (shared.referencesIn 2).map shared.denoted? =
        [some (.variable "this_0" ⟨1, .declaration⟩), some (.this 1)]) ∧
    ∃ closure ∈ hidden.closures, closure.scope = 2 ∧ closure.params = ["this_0"] ∧
      (hidden.scope? 2).map Scope.declarations = some ["this_0"] := by
  decide +kernel

end Resumable
