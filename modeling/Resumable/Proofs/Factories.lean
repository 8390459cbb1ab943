import Resumable.Hoisting.Calls
import Resumable.Proofs.Capturing

/-! Factories are closed. Whatever the code of a hoisted closure mentions from outside is one of its parameters, the
variable that its factory binds it to, or the closure itself, and so it is with calls of other factories in that
code. -/
namespace Resumable
open Script Scoping Option
variable {name : String} {i : ClosureIndex} {reference : Reference} {owner site s : ScopeIndex} {binding : Binding}

namespace Scoping

variable {tree : Scoping} {nests : Prop}

variable {resolution : Resolution} {closure : Closure}

lemma Sound.boundName_of_resolve (sound : tree.Sound nests root)
    (found : tree.resolve source name = some resolution) (target : resolution.target = .closure i) :
    ∃ closure, tree.closure? i = some closure ∧ closure.parent = resolution.scope ∧ closure.boundName = name := by
  have here := resolveIn_of_resolve found
  unfold resolveIn at here
  split at here
  · rename_i scope entry
    split at here
    · rw [← some.inj here] at target
      cases target
    · obtain ⟨other,got,equal⟩ := map_eq_some_iff.1 here
      rw [← equal] at target
      cases target
      exact sound.exported entry (Keyed.mem_of_get? got)
  · cases here

lemma Sound.closure_of_region (sound : tree.Sound nests root) (region : tree.regionAround s = some i) :
    ∃ closure, tree.closure? i = some closure ∧ closure.isLifted = true ∧ closure.scope ∈ tree.chain s := by
  obtain ⟨owner,around,lifted⟩ := List.exists_of_findSome?_eq_some region
  simp only [liftedAt,filter_eq_some_iff,bind_eq_some_iff] at lifted
  obtain ⟨⟨scope, entry,mark⟩,lifts⟩ := lifted
  obtain ⟨closure,found,own⟩ := sound.owns entry mark
  refine ⟨closure,found,?_,own ▸ around⟩
  simpa [found] using lifts

/-- Where a captured binding comes from: a reference within the closure that leads out of it, to something
other than itself. -/
inductive Origin (tree : Scoping) (i : ClosureIndex) (closure : Closure) (reference : Reference) : Binding → Prop where
  | declared {name : String} {resolution : Resolution} (mention : reference.mention = .identifier name)
      (found : tree.resolve reference.scope name = some resolution)
      (target : resolution.target = .declaration) (inner : resolution.scope ≠ root)
      (outside : closure.scope ∉ tree.chain resolution.scope)
      (apart : ¬(resolution.scope = closure.parent ∧ closure.selfName = some name)) :
    Origin tree i closure reference ⟨name,.identifier name,resolution.scope⟩
  | closure {name : String} {resolution : Resolution} {other : ClosureIndex}
      (mention : reference.mention = .identifier name)
      (found : tree.resolve reference.scope name = some resolution)
      (target : resolution.target = .closure other) (inner : resolution.scope ≠ root)
      (outside : closure.scope ∉ tree.chain resolution.scope) (apart : other ≠ i) :
    Origin tree i closure reference ⟨name,.closure other,resolution.scope⟩
  | this {owner : ScopeIndex} (mention : reference.mention = .this owner) (inner : owner ≠ root)
      (outside : closure.scope ∉ tree.chain owner) :
    Origin tree i closure reference ⟨Naming.thisName (tree.startOf owner),.this owner,owner⟩
  | arguments {owner : ScopeIndex} (mention : reference.mention = .arguments owner)
      (outside : closure.scope ∉ tree.chain owner) :
    Origin tree i closure reference ⟨Naming.argumentsName (tree.startOf owner),.arguments owner,owner⟩

/-- A reference to the variable that the closure is the initial value of, in the scope of the literal. -/
structure NamesItself (tree : Scoping) (closure : Closure) (reference : Reference) (name : String) :
    Prop where
  mention : reference.mention = .identifier name
  self : closure.selfName = some name
  found : tree.resolve reference.scope name = some ⟨closure.parent,.declaration⟩
  inner : closure.parent ≠ root
  outside : closure.scope ∉ tree.chain closure.parent

lemma demand_cases {asked : Demand} (asks : tree.demand i closure reference = asked) :
    asked.captured = .nothing ∨ (asked = .itself ∧ ∃ name, tree.NamesItself closure reference name) ∨
    ∃ binding, asked = .binding binding ∧ tree.Origin i closure reference binding := by
  unfold demand at asks
  split at asks
  · rename_i name mention
    unfold identifierDemand at asks
    split at asks
    · exact .inl (asks ▸ rfl)
    rename_i resolution found
    split at asks
    · split at asks <;> exact .inl (asks ▸ rfl)
    rename_i inner
    split at asks
    · exact .inl (asks ▸ rfl)
    rename_i apart
    have outside := liesWithin_eq_false_iff.1 (Bool.eq_false_iff.2 apart)
    have inner : resolution.scope ≠ root := fun top => inner (beq_iff_eq.2 top)
    obtain ⟨scope,target⟩ := resolution
    split at asks
    · rename_i is
      cases is
      split at asks
      · rename_i own
        simp only [Bool.and_eq_true,beq_iff_eq] at own
        obtain ⟨rfl,self⟩ := own
        exact .inr (.inl ⟨asks.symm,name,mention,self,found,inner,outside⟩)
      · rename_i distinct
        exact .inr (.inr ⟨_,asks.symm,.declared mention found rfl inner outside (by simpa using distinct)⟩)
    · rename_i other is
      cases is
      split at asks
      · exact .inl (asks ▸ rfl)
      · rename_i distinct
        exact .inr (.inr ⟨_,asks.symm,.closure mention found rfl inner outside (by simpa using distinct)⟩)
  · rename_i owner mention
    split at asks
    · exact .inl (asks ▸ rfl)
    · rename_i apart
      simp only [Bool.or_eq_true,not_or,beq_iff_eq,Bool.not_eq_true] at apart
      exact .inr (.inr ⟨_,asks.symm,.this mention apart.1 (liesWithin_eq_false_iff.1 apart.2)⟩)
  · rename_i owner mention
    split at asks
    · exact .inl (asks ▸ rfl)
    · rename_i apart
      exact .inr (.inr ⟨_,asks.symm,.arguments mention (liesWithin_eq_false_iff.1 (Bool.eq_false_iff.2 apart))⟩)

lemma origin_of_demand (asks : tree.demand i closure reference = .binding binding) :
    tree.Origin i closure reference binding := by
  rcases demand_cases asks with none | ⟨other,_⟩ | ⟨_,same,origin⟩
  · cases none
  · cases other
  · cases same
    exact origin

lemma NamesItself.demand_eq (itself : tree.NamesItself closure reference name) (i : ClosureIndex) :
    tree.demand i closure reference = .itself := by
  simp [demand,itself.mention,identifierDemand,itself.found,itself.inner,
    liesWithin_eq_false_iff.2 itself.outside,itself.self]

lemma Origin.demand_eq (origin : tree.Origin i closure reference binding) :
    tree.demand i closure reference = .binding binding := by
  cases origin with
  | declared mention found target inner outside apart | closure mention found target inner outside apart =>
    simp [demand,mention,identifierDemand,found,inner,liesWithin_eq_false_iff.2 outside,target,apart]
  | this mention inner outside => simp [demand,mention,inner,liesWithin_eq_false_iff.2 outside]
  | arguments mention outside => simp [demand,mention,liesWithin_eq_false_iff.2 outside]

section
variable (bound : tree.Bound i closure) (listed : reference ∈ tree.referencesIn closure.scope)
include bound listed

/-- Captured names are provided: each is a parameter, the variable that the closure is the initial
value of, or a name of the closure itself. -/
lemma Bound.provides_name (mention : reference.mention = .identifier name)
    (found : tree.resolve reference.scope name = some resolution) (inner : resolution.scope ≠ root)
    (outside : closure.scope ∉ tree.chain resolution.scope) :
    name ∈ closure.params ∨ (closure.selfName = some name ∧ closure.selfReferencing = true) ∨
      resolution.target = .closure i := by
  cases target : resolution.target with
  | declaration =>
    by_cases own : resolution.scope = closure.parent ∧ closure.selfName = some name
    · obtain ⟨scope,referent⟩ := resolution
      obtain ⟨rfl,self⟩ := own
      cases target
      have itself : tree.NamesItself closure reference name := ⟨mention,self,found,inner,outside⟩
      exact .inr (.inl ⟨self,bound.itself reference listed (itself.demand_eq i)⟩)
    · exact .inl (bound.given reference listed _ (Origin.declared mention found target inner outside own).demand_eq)
  | closure other =>
    by_cases own : other = i
    · exact .inr (.inr (by rw [own]))
    · exact .inl (bound.given reference listed _ (Origin.closure mention found target inner outside own).demand_eq)

lemma Bound.provides_this (mention : reference.mention = .this owner)
    (inner : owner ≠ root) (outside : closure.scope ∉ tree.chain owner) :
    Naming.thisName (tree.startOf owner) ∈ closure.params :=
  bound.given reference listed _ (Origin.this mention inner outside).demand_eq

lemma Bound.provides_arguments (mention : reference.mention = .arguments owner)
    (outside : closure.scope ∉ tree.chain owner) :
    Naming.argumentsName (tree.startOf owner) ∈ closure.params :=
  bound.given reference listed _ (Origin.arguments mention outside).demand_eq

end
end Scoping

/-- What the code of a closure can name at some scope within it: what is bound inside, the parameters
of the factory, the variable that the factory binds the closure to, and the closure's own name. -/
inductive Closure.Reaches (tree : Scoping) (closure : Closure) (site : ScopeIndex) (name : String) :
    Prop where
  | inside (resolution : Resolution) (found : tree.resolve site name = some resolution)
      (within : tree.liesWithin resolution.scope closure.scope = true)
  | param (member : name ∈ closure.params)
  | selfName (self : closure.selfName = some name) (uses : closure.selfReferencing = true)
  | ownName (own : closure.boundName = name)

/-- How an argument of a call that stands in the code of a closure is spelled: in names that the code
can reach, with `this` and `arguments` as they are only if they are the closure's own. -/
def Plan.SpelledWithin (plan : Plan) (closure called : Closure) (binding : Binding) (text : String) :
    Prop :=
  match binding.arg with
  | .identifier name => text = name ∧ closure.Reaches plan.tree called.parent name
  | .closure target =>
    (text = binding.param ∨ ∃ unit, plan.tree.closure? target = some unit ∧
      text = "__lazyRef(\"" ++ unit.exportName ++ "\", () => " ++ binding.param ++ ")") ∧
    closure.Reaches plan.tree called.parent binding.param
  | .this owner =>
    (text = "this" ∧ plan.tree.liesWithin owner closure.scope = true) ∨
      (text = Naming.thisName (plan.tree.startOf owner) ∧ text ∈ closure.params)
  | .arguments owner =>
    (text = "arguments" ∧ plan.tree.liesWithin owner closure.scope = true) ∨
      (text = Naming.argumentsName (plan.tree.startOf owner) ∧ text ∈ closure.params)

/-- The code of a hoisted closure mentions nothing that its factory is not given. -/
structure Plan.IsClosed (plan : Plan) (id : ClosureIndex) (closure : Closure) : Prop where
  names : ∀ {s reference name resolution}, reference ∈ plan.tree.referencesIn s →
    plan.tree.regionAround reference.scope = some id → reference.mention = .identifier name →
    plan.tree.resolve reference.scope name = some resolution → resolution.scope ≠ Scoping.root →
    plan.tree.liesWithin resolution.scope closure.scope = false →
    name ∈ closure.params ∨ (closure.selfName = some name ∧ closure.selfReferencing = true) ∨
      resolution.target = .closure id
  this : ∀ {s reference owner}, reference ∈ plan.tree.referencesIn s →
    plan.tree.regionAround reference.scope = some id → reference.mention = .this owner →
    owner ≠ Scoping.root → plan.tree.liesWithin owner closure.scope = false →
    plan.thisText owner reference.scope = Naming.thisName (plan.tree.startOf owner) ∧
      plan.thisText owner reference.scope ∈ closure.params
  arguments : ∀ {s reference owner}, reference ∈ plan.tree.referencesIn s →
    plan.tree.regionAround reference.scope = some id → reference.mention = .arguments owner →
    plan.tree.liesWithin owner closure.scope = false →
    plan.argumentsText owner reference.scope = Naming.argumentsName (plan.tree.startOf owner) ∧
      plan.argumentsText owner reference.scope ∈ closure.params
  calls : ∀ {other called binding}, plan.tree.closure? other = some called →
    plan.tree.homeRegion called = some id → binding ∈ called.bindings →
    ∃ text, plan.argument other called binding = .ok text ∧ plan.SpelledWithin closure called binding text

namespace Plan

variable {plan : Plan} {nests : Prop} {id : ClosureIndex} {closure : Closure}

section
variable (found : plan.tree.closure? id = some closure)
include found

section
variable (region : plan.tree.regionAround site = some id)
include region

lemma passesThrough_of_region (owner : ScopeIndex) :
    plan.passesThrough owner site = !plan.tree.liesWithin owner closure.scope := by
  simp [passesThrough,region,found]

lemma thisText_of_outside (inner : owner ≠ Scoping.root) (outside : plan.tree.liesWithin owner closure.scope = false) :
    plan.thisText owner site = Naming.thisName (plan.tree.startOf owner) := by
  simp [thisText,passesThrough_of_region found region,inner,outside]

lemma argumentsText_of_outside (outside : plan.tree.liesWithin owner closure.scope = false) :
    plan.argumentsText owner site = Naming.argumentsName (plan.tree.startOf owner) := by
  simp [argumentsText,passesThrough_of_region found region,outside]

end
end

lemma listed_in_region (sound : plan.tree.Sound nests Scoping.root)
    (found : plan.tree.closure? id = some closure) (listed : reference ∈ plan.tree.referencesIn s)
    (region : plan.tree.regionAround reference.scope = some id) :
    reference ∈ plan.tree.referencesIn closure.scope := by
  obtain ⟨scope, entry,member⟩ := mem_referencesIn.1 listed
  obtain ⟨other,otherFound,_,around⟩ := sound.closure_of_region region
  cases found.symm.trans otherFound
  exact mem_referencesIn.2 (sound.listed entry member around)

lemma argument_spelled (sound : plan.tree.Sound nests Scoping.root) (bound : plan.tree.Bound id closure)
    (found : plan.tree.closure? id = some closure) (calledFound : plan.tree.closure? other = some called)
    (calledBound : plan.tree.Bound other called) (home : plan.tree.homeRegion called = some id)
    (member : binding ∈ called.bindings) :
    ∃ text, plan.argument other called binding = .ok text ∧ plan.SpelledWithin closure called binding text := by
  obtain ⟨reference,listedInner,asks⟩ := calledBound.asked binding member
  obtain ⟨inner, innerEntry,innerMember⟩ := mem_referencesIn.1 listedInner
  obtain ⟨within,_⟩ := sound.made innerEntry innerMember
  obtain ⟨own, ownEntry,_,up⟩ := sound.owned calledFound
  -- the region of the call is around the literal, so the reference is listed there as well
  obtain ⟨region,regionFound,_,around⟩ := sound.closure_of_region home
  cases found.symm.trans regionFound
  have listed : reference ∈ plan.tree.referencesIn closure.scope := by
    have above : closure.scope ∈ plan.tree.chain called.scope := by
      rw [chain_of_parent sound.parented ownEntry up]
      exact List.mem_cons_of_mem _ around
    exact mem_referencesIn.2 (sound.listed innerEntry innerMember (mem_chain_trans sound.parented within above))
  -- a name that leads out of the called closure means the same where the call is written
  have reaches : ∀ {name resolution}, reference.mention = .identifier name →
      plan.tree.resolve reference.scope name = some resolution → resolution.scope ≠ Scoping.root →
      called.scope ∉ plan.tree.chain resolution.scope →
      plan.tree.resolve called.parent name = some resolution ∧ closure.Reaches plan.tree called.parent name := by
    intro name resolution mention resolves inner outside
    have atCall := resolve_parent resolves sound.parented within ownEntry up outside
    refine ⟨atCall,?_⟩
    by_cases inClosure : closure.scope ∈ plan.tree.chain resolution.scope
    · exact .inside resolution atCall (liesWithin_iff.2 inClosure)
    rcases bound.provides_name listed mention resolves inner inClosure with
      param | ⟨self,uses⟩ | itself
    · exact .param param
    · exact .selfName self uses
    · obtain ⟨same,sameFound,_,name⟩ := sound.boundName_of_resolve resolves itself
      cases found.symm.trans sameFound
      exact .ownName name
  cases origin_of_demand asks with
  | declared mention resolves _ inner outside =>
    obtain ⟨atCall,reach⟩ := reaches mention resolves inner outside
    exact ⟨_,by simp [argument,atCall],rfl,reach⟩
  | closure mention resolves _ inner outside =>
    obtain ⟨_,reach⟩ := reaches mention resolves inner outside
    refine ⟨_,rfl,?_,reach⟩
    unfold closureText
    split
    · exact .inl rfl
    · rename_i unit unitFound
      split
      · exact .inr ⟨unit,unitFound,rfl⟩
      · exact .inl rfl
  | @this owner mention inner outside =>
    refine ⟨_,rfl,?_⟩
    by_cases inClosure : plan.tree.liesWithin owner closure.scope = true
    · exact .inl ⟨by simp [thisText,passesThrough_of_region found home,inClosure],inClosure⟩
    · have apart := Bool.eq_false_iff.2 inClosure
      have text := thisText_of_outside found home inner apart
      refine .inr ⟨text,text ▸ ?_⟩
      exact bound.provides_this listed mention inner (liesWithin_eq_false_iff.1 apart)
  | @arguments owner mention outside =>
    refine ⟨_,rfl,?_⟩
    by_cases inClosure : plan.tree.liesWithin owner closure.scope = true
    · exact .inl ⟨by simp [argumentsText,passesThrough_of_region found home,inClosure],inClosure⟩
    · have apart := Bool.eq_false_iff.2 inClosure
      have text := argumentsText_of_outside found home apart
      refine .inr ⟨text,text ▸ ?_⟩
      exact bound.provides_arguments listed mention (liesWithin_eq_false_iff.1 apart)

end Plan

/-- For every program, the factory of each of its closures is closed. -/
theorem factory_mentions_only_what_it_is_given (setting : Selecting) (program : Program)
    (file : String) {id : ClosureIndex} {closure : Closure}
    (found : (analyze setting program).tree.bindAll.closure? id = some closure) :
    ((analyze setting program).tree.bindAll.plan file).IsClosed id closure := by
  let plan := (analyze setting program).tree.bindAll.plan file
  have sound : plan.tree.Sound False Scoping.root := (analyze_sound setting program (by simp)).bindAll
  have bound := Scoping.bound_bindAll found
  constructor
  · intro s reference name resolution listed region mention resolves inner outside
    exact bound.provides_name (Plan.listed_in_region sound found listed region) mention resolves inner
      (Scoping.liesWithin_eq_false_iff.mp outside)
  · intro s reference owner listed region mention inner outside
    have text := Plan.thisText_of_outside found region inner outside
    refine ⟨text, text ▸ ?_⟩
    exact bound.provides_this (Plan.listed_in_region sound found listed region) mention inner
      (Scoping.liesWithin_eq_false_iff.mp outside)
  · intro s reference owner listed region mention outside
    have text := Plan.argumentsText_of_outside found region outside
    refine ⟨text, text ▸ ?_⟩
    exact bound.provides_arguments (Plan.listed_in_region sound found listed region) mention
      (Scoping.liesWithin_eq_false_iff.mp outside)
  · intro other called binding calledFound home member
    exact Plan.argument_spelled sound bound found calledFound (Scoping.bound_bindAll calledFound) home
      member

/-- `function outer(x) { return function () { return () => [x, this, arguments]; }; }` -/
def nestedLiterals : Program where
  span := ⟨0,80⟩
  body := [.function (.mk { span := ⟨0,80⟩, name := some ⟨"outer",⟨9,14⟩⟩, paramsStart := 14 }
    [.slot [] (.bind ⟨"x",⟨15,16⟩⟩) []]
    [.returns [.function (.mk { span := ⟨27,77⟩, paramsStart := 36 } []
      [.returns [.arrow (.mk { span := ⟨48,74⟩, paramsStart := 48 } [] [.returns [.node .array ⟨54,74⟩
          [.name ⟨"x",⟨55,56⟩⟩,.thisValue ⟨58,62⟩,.name ⟨"arguments",⟨64,73⟩⟩]] ⟨54,74⟩])]
        ⟨41,75⟩])] ⟨20,78⟩])]

def everything : Selecting where
  source := []
  selects _ := true

theorem nestedLiterals_closed :
    ∃ closure, (analyze everything nestedLiterals).tree.bindAll.closure? 2 = some closure ∧
      closure.isLifted = true ∧ closure.params = ["x", "this_27", "arguments_27"] ∧
      ((analyze everything nestedLiterals).tree.bindAll.plan "a.js").IsClosed 2 closure := by
  have arrow : ((analyze everything nestedLiterals).tree.bindAll.closure? 2).map
      (fun closure => (closure.isLifted, closure.params)) =
        some (true, ["x", "this_27", "arguments_27"]) := by decide +kernel
  obtain ⟨closure, found, facts⟩ := Option.map_eq_some_iff.mp arrow
  obtain ⟨lifted, params⟩ := Prod.mk.inj facts
  exact ⟨closure, found, lifted, params,
    factory_mentions_only_what_it_is_given everything nestedLiterals "a.js" found⟩

end Resumable
