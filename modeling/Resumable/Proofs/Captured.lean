import Resumable.Proofs.Threading

/-! What closures capture, exactly: what their references lead out to, each parameter once and in the order of the
first references. A closure does not capture the variable that it is the initial value of, unless that is a `var` in
a loop, which belongs to the function around the loop. -/
namespace Resumable
open Script

namespace Scoping

variable {tree : Scoping} {i : ClosureIndex} {closure : Closure} {reference : Reference} {name : String}

section
variable (sound : tree.Sound nests root) (found : tree.closure? i = some closure)
include sound found

lemma Sound.scope_not_mem_parent : closure.scope ∉ tree.chain closure.parent := by
  obtain ⟨scope, entry,_,up⟩ := sound.owned found
  exact fun inside => absurd (le_of_mem_chain sound.parented inside) (sound.parented entry up).not_ge

lemma Sound.demand_eq_itself_iff : tree.demand i closure reference = .itself ↔ closure.parent ≠ root ∧
    ∃ name, reference.mention = .identifier name ∧ closure.selfName = some name ∧
      tree.resolve reference.scope name = some ⟨closure.parent,.declaration⟩ := by
  constructor
  · intro asks
    rcases demand_cases asks with none | ⟨_,name,itself⟩ | ⟨_,other,_⟩
    · cases none
    · exact ⟨itself.inner,name,itself.mention,itself.self,itself.found⟩
    · cases other
  · rintro ⟨inner,name,mention,self,resolves⟩
    exact NamesItself.demand_eq ⟨mention,self,resolves,inner,sound.scope_not_mem_parent found⟩ i

lemma Sound.resolve_around (listed : reference ∈ tree.referencesIn closure.scope)
    (resolves : tree.resolve reference.scope name = some resolution)
    (outside : closure.scope ∉ tree.chain resolution.scope) :
    tree.resolve closure.parent name = some resolution := by
  obtain ⟨scope, entry,made⟩ := mem_referencesIn.1 listed
  obtain ⟨own, ownEntry,_,up⟩ := sound.owned found
  exact resolve_parent resolves sound.parented (sound.made entry made).1 ownEntry up outside

end

lemma functionScope_cases (parented : tree.Parented) (found : tree.scope? s = some scope) (inner : s ≠ root) :
    (tree.kindOf s ≠ .loop ∧ tree.functionScope s = s) ∨ (tree.kindOf s = .loop ∧ tree.functionScope s < s) := by
  obtain ⟨rest,chain,around⟩ : ∃ rest, tree.chain s = s :: rest ∧ ∀ outer ∈ rest, outer < s := by
    cases up : scope.parent with
    | none => exact ⟨[],chain_of_orphan found up,by simp⟩
    | some parent =>
      refine ⟨_,chain_of_parent parented found up,fun outer member => ?_⟩
      exact (le_of_mem_chain parented member).trans_lt (parented found up)
  unfold functionScope
  rw [chain]
  by_cases loop : tree.kindOf s = .loop
  · refine .inr ⟨loop,?_⟩
    simp only [List.dropWhile_cons,loop,beq_self_eq_true,if_true]
    cases first : (rest.dropWhile fun outer => tree.kindOf outer == .loop).head? with
    | none => exact Nat.pos_of_ne_zero inner
    | some outer => exact around outer ((List.dropWhile_sublist _).subset (List.mem_of_head? first))
  · exact .inl ⟨loop,by simp [loop]⟩

section
variable (sound : tree.Sound nests root) (found : tree.closure? i = some closure)
  (filled : tree.Filled i closure) (self : closure.selfName = some name)
  (listed : reference ∈ tree.referencesIn closure.scope) (mention : reference.mention = .identifier name)
include sound found filled self listed mention

lemma Filled.itself_of_resolve (below : closure.parent ≠ root)
    (resolves : tree.resolve reference.scope name = some ⟨closure.parent,.declaration⟩) :
    closure.selfReferencing = true ∧
      ∀ binding ∈ closure.bindings, binding.param = name → binding.isThreaded = true := by
  have outside := sound.scope_not_mem_parent found
  refine ⟨?_,fun binding member named => ?_⟩
  · have itself : tree.NamesItself closure reference name := ⟨mention,self,resolves,below,outside⟩
    exact filled.bound.itself reference listed (itself.demand_eq i)
  -- a captured variable of that name is the one that the reference leads to, and so is not captured
  by_contra plain
  obtain ⟨other,otherListed,asks⟩ := filled.bound.asked binding member
  obtain ⟨resolution,otherMention,otherResolves,apart⟩ := (origin_of_demand asks).variable (Bool.eq_false_iff.2 plain)
  rw [named] at otherMention otherResolves
  cases (sound.resolve_around found otherListed otherResolves apart).symm.trans
    (sound.resolve_around found listed resolves outside)
  have itself : tree.NamesItself closure other name := ⟨otherMention,self,otherResolves,below,outside⟩
  cases (itself.demand_eq i).symm.trans asks

lemma Filled.captured_of_resolve (further : s < closure.parent) (inner : s ≠ root)
    (resolves : tree.resolve reference.scope name = some ⟨s,.declaration⟩) :
    closure.selfReferencing = false ∧ name ∈ closure.params := by
  obtain ⟨scope, entry,_,up⟩ := sound.owned found
  have apart : closure.scope ∉ tree.chain s := fun inside =>
    absurd (le_of_mem_chain sound.parented inside) (further.trans (sound.parented entry up)).not_ge
  refine ⟨Bool.eq_false_iff.2 fun set => ?_,?_⟩
  · obtain ⟨other,otherListed,asks⟩ := filled.spec.2.2.2.1 set
    obtain ⟨-,otherName,_,otherSelf,otherResolves⟩ := (sound.demand_eq_itself_iff found).1 asks
    cases self.symm.trans otherSelf
    have outside := sound.scope_not_mem_parent found
    cases (sound.resolve_around found otherListed otherResolves outside).symm.trans
      (sound.resolve_around found listed resolves apart)
    exact lt_irrefl _ further
  · have origin : tree.Origin i closure reference ⟨name,.identifier name,s⟩ :=
      .declared mention resolves rfl inner apart fun same => further.ne same.1
    exact filled.bound.given reference listed _ origin.demand_eq

end
end Scoping

/-- `function f(a, b) { const g = () => [b, a, b, g, this]; return g; }` -/
def mentionsItself : Program where
  span := ⟨0,66⟩
  body := [.function (.mk { span := ⟨0,66⟩, name := some ⟨"f",⟨9,10⟩⟩, paramsStart := 10 }
    [.slot [] (.bind ⟨"a",⟨11,12⟩⟩) [],.slot [] (.bind ⟨"b",⟨14,15⟩⟩) []]
    [.variableDecl .const [.slot [] (.bind ⟨"g",⟨25,26⟩⟩)
      [.arrow (.mk { span := ⟨29,53⟩, paramsStart := 29 } [] [.expression (.node .array ⟨35,53⟩
        [.name ⟨"b",⟨36,37⟩⟩,.name ⟨"a",⟨39,40⟩⟩,.name ⟨"b",⟨42,43⟩⟩,.name ⟨"g",⟨45,46⟩⟩,
          .thisValue ⟨48,52⟩]) ⟨35,53⟩])]] ⟨19,54⟩,
     .returns [.name ⟨"g",⟨62,63⟩⟩] ⟨55,64⟩])]

/-- A reference to the variable that a literal is the initial value of is recognised if it leads to the
scope that the literal stands in. That is the scope of the variable, unless the variable is a `var` in a
loop: then it is captured like any other. -/
theorem own_variable_recognised_in_its_scope (setting : Selecting) (program : Program) (i : ClosureIndex)
    (closure : Closure) (name : String) (reference : Reference)
    (found : (analyze setting program).tree.bindAll.closure? i = some closure)
    (self : closure.selfName = some name) (below : closure.parent ≠ Scoping.root)
    (listed : reference ∈ (analyze setting program).tree.bindAll.referencesIn closure.scope)
    (mention : reference.mention = .identifier name) :
    let tree := (analyze setting program).tree.bindAll
    let whole := tree.functionScope closure.parent
    (tree.resolve reference.scope name = some ⟨closure.parent,.declaration⟩ →
      closure.selfReferencing = true ∧
      ∀ binding ∈ closure.bindings, binding.param = name → binding.isThreaded = true) ∧
    (tree.kindOf closure.parent ≠ .loop → whole = closure.parent) ∧
    (tree.kindOf closure.parent = .loop → whole ≠ Scoping.root →
      tree.resolve reference.scope name = some ⟨whole,.declaration⟩ →
      closure.selfReferencing = false ∧ name ∈ closure.params) := by
  intro tree whole
  have sound := analyze_bindAll_sound setting program
  have filled := Scoping.filled_bindAll found
  obtain ⟨parent, entry⟩ := Scoping.scope?_of_lt (sound.parent_lt found)
  have place := Scoping.functionScope_cases sound.parented entry below
  refine ⟨filled.itself_of_resolve sound found self listed mention below,fun outside => ?_,fun loop => ?_⟩
  · exact (place.resolve_right fun inside => outside inside.1).2
  · obtain ⟨-,further⟩ := place.resolve_left fun outside => outside.1 loop
    exact filled.captured_of_resolve sound found self listed mention further

theorem mentionsItself_recognised : let tree := (analyze everything mentionsItself).tree.bindAll
    ∃ closure, tree.closure? 1 = some closure ∧ closure.selfReferencing = true ∧
      ∀ binding ∈ closure.bindings, binding.param = "g" → binding.isThreaded = true := by
  intro tree
  have computed : (tree.closure? 1).map (fun closure => (closure.selfName, closure.parent,
      (tree.referencesIn closure.scope)[3]?.map fun reference =>
        (reference.mention, tree.resolve reference.scope "g"))) =
      some (some "g", 1, some (.identifier "g", some ⟨1,.declaration⟩)) := by decide +kernel
  obtain ⟨closure,found,facts⟩ := Option.map_eq_some_iff.1 computed
  simp only [Prod.mk.injEq] at facts
  obtain ⟨self,parent,fourth⟩ := facts
  obtain ⟨reference,listed,facts⟩ := Option.map_eq_some_iff.1 fourth
  obtain ⟨mention,resolves⟩ := Prod.mk.inj facts
  have recognised := (own_variable_recognised_in_its_scope everything mentionsItself 1 closure "g" reference
    found self (by simp [parent,Scoping.root]) (List.mem_of_getElem? listed) mention).1 (parent ▸ resolves)
  exact ⟨closure,found,recognised⟩

/-- `function f() { for (;;) { var x = () => x; } }` -/
def loopVariable : Program where
  span := ⟨0,46⟩
  body := [.function (.mk { span := ⟨0,46⟩, name := some ⟨"f",⟨9,10⟩⟩, paramsStart := 10 } []
    [.loop [.block [.variableDecl .var [.slot [] (.bind ⟨"x",⟨30,31⟩⟩)
      [.arrow (.mk { span := ⟨34,41⟩, paramsStart := 34 } []
        [.expression (.name ⟨"x",⟨40,41⟩⟩) ⟨40,41⟩])]] ⟨26,42⟩] ⟨24,44⟩] ⟨15,44⟩])]

/-- The variable belongs to the function, and the literal to the loop in it. -/
theorem loopVariable_captured : let tree := (analyze everything loopVariable).tree.bindAll
    (tree.closure? 1).map (fun closure => (closure.selfName, closure.params, closure.selfReferencing)) =
      some (some "x", ["x"], false) ∧
    (tree.referencesIn 3).map (fun reference => (reference.mention, tree.resolve reference.scope "x")) =
      [(.identifier "x", some ⟨1,.declaration⟩)] := by
  decide +kernel

end Resumable
