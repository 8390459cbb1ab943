import Resumable.Proofs.Soundness

/-! What filling in the captures does. It changes no scope but its imports and no closure but its
bindings, so names mean the same before and after; and the bindings of each closure are what the
references within it ask for. -/
namespace Resumable
open Script List
variable {i : ClosureIndex} {closure : Closure} {demand : Demand}

/-! ### What captures leave alone -/

def Scope.bare (scope : Scope) : Scope := { scope with imports := [] }

def Closure.bare (closure : Closure) : Closure := { closure with bindings := [], selfReferencing := false }

def Closure.capturing (closure : Closure) (bindings : List Binding) (selfReferencing : Bool) : Closure :=
  { closure with bindings, selfReferencing }

namespace Scoping

variable {s current : ScopeIndex} {nests : Prop} {binding : Binding}

/-- A tree before captures are filled in. Resolution reads no more than this. -/
def bare (tree : Scoping) : Scoping where
  scopes := tree.scopes.map Scope.bare
  closures := tree.closures.map Closure.bare

variable (tree : Scoping)

@[simp] lemma scope?_bare (s : ScopeIndex) : tree.bare.scope? s = (tree.scope? s).map Scope.bare := getElem?_map

@[simp] lemma closure?_bare (i : ClosureIndex) : tree.bare.closure? i = (tree.closure? i).map Closure.bare :=
  getElem?_map

@[simp] lemma chain_bare (s : ScopeIndex) : tree.bare.chain s = tree.chain s := by
  refine chain_congr (fun s => ?_) s
  rw [scope?_bare,Option.map_map]
  rfl

@[simp] lemma liesWithin_bare (s outer : ScopeIndex) : tree.bare.liesWithin s outer = tree.liesWithin s outer := by
  simp [liesWithin]

lemma resolveIn_bare (name : String) (s : ScopeIndex) : tree.bare.resolveIn name s = tree.resolveIn name s := by
  unfold resolveIn
  rw [scope?_bare]
  cases tree.scope? s <;> rfl

@[simp] lemma resolve_bare (s : ScopeIndex) (name : String) : tree.bare.resolve s name = tree.resolve s name := by
  simp only [resolve,chain_bare]
  congr 1
  funext s
  exact resolveIn_bare tree name s

@[simp] lemma startOf_bare (s : ScopeIndex) : tree.bare.startOf s = tree.startOf s := by
  unfold startOf
  rw [scope?_bare]
  cases tree.scope? s <;> rfl

variable {tree} {other : Scoping}

section
variable (same : other.bare = tree.bare)
include same

lemma scope?_of_bare_eq (found : other.scope? s = some scope) :
    ∃ imports, tree.scope? s = some { scope with imports } := by
  have entries : (other.scope? s).map Scope.bare = (tree.scope? s).map Scope.bare := by
    rw [← scope?_bare,← scope?_bare,same]
  rw [found,Option.map_some] at entries
  obtain ⟨before, entry,equal⟩ := Option.map_eq_some_iff.1 entries.symm
  refine ⟨before.imports,entry.trans (congrArg some ?_)⟩
  exact congrArg (fun scope : Scope => { scope with imports := before.imports }) equal

lemma closure?_of_bare_eq (found : other.closure? i = some closure) :
    ∃ before, tree.closure? i = some before ∧ closure.bare = before.bare := by
  have entries : (other.closure? i).map Closure.bare = (tree.closure? i).map Closure.bare := by
    rw [← closure?_bare,← closure?_bare,same]
  rw [found,Option.map_some] at entries
  obtain ⟨before, entry,equal⟩ := Option.map_eq_some_iff.1 entries.symm
  exact ⟨before, entry,equal.symm⟩

lemma capturing_of_bare_eq (found : other.closure? i = some closure) :
    ∃ bindings selfReferencing, tree.closure? i = some (closure.capturing bindings selfReferencing) := by
  obtain ⟨before, entry,equal⟩ := closure?_of_bare_eq same found
  refine ⟨before.bindings,before.selfReferencing,entry.trans (congrArg some ?_)⟩
  exact (congrArg (·.capturing before.bindings before.selfReferencing) equal).symm

lemma length_of_bare_eq : other.scopes.length = tree.scopes.length := by
  simpa [bare] using congrArg (fun tree => tree.scopes.length) same

lemma grows_of_bare_eq : tree.Grows other := by
  intro s scope found
  obtain ⟨_, entry⟩ := scope?_of_bare_eq same.symm found
  exact ⟨_, entry,rfl,rfl,rfl,fun known => known⟩

end

/-- A tree is read through its entries and its chains, and neither shows what is captured. -/
lemma sound_bare : tree.bare.Sound nests current ↔ tree.Sound nests current := by
  have length : tree.bare.scopes.length = tree.scopes.length := length_map ..
  have name (closure : Closure) : closure.bare.boundName = closure.boundName := rfl
  simp only [sound_iff,Parented,length,scope?_bare,closure?_bare,chain_bare,Option.map_eq_some_iff,
    forall_exists_index,and_imp,forall_apply_eq_imp_iff₂,exists_exists_and_eq_and,name]
  -- what is left differs in the fields that no condition reads
  simp only [Scope.bare,Closure.bare]
  grind

lemma Sound.of_bare_eq (sound : tree.Sound nests current) (same : other.bare = tree.bare) :
    other.Sound nests current := sound_bare.1 (same ▸ sound_bare.2 sound)

/-! ### What references ask for -/

def Demand.captured : Demand → Demand
  | .imported _ => .nothing
  | demand => demand

lemma demand_captured_congr (same : other.bare = tree.bare) (equal : closure.bare = before.bare)
    (i : ClosureIndex) (reference : Reference) :
    (other.demand i closure reference).captured = (tree.demand i before reference).captured := by
  have scopes : closure.scope = before.scope := (congrArg Closure.scope equal :)
  have parents : closure.parent = before.parent := (congrArg Closure.parent equal :)
  have selves : closure.selfName = before.selfName := (congrArg Closure.selfName equal :)
  have within : ∀ s outer, other.liesWithin s outer = tree.liesWithin s outer := fun s outer => by
    rw [← liesWithin_bare,same,liesWithin_bare]
  have starts : ∀ s, other.startOf s = tree.startOf s := fun s => by rw [← startOf_bare,same,startOf_bare]
  unfold demand
  cases reference.mention with
  | this owner | arguments owner => simp only [within,scopes,starts]
  | identifier name =>
    have resolution : other.resolve reference.scope name = tree.resolve reference.scope name := by
      rw [← resolve_bare,same,resolve_bare]
    simp only [identifierDemand,resolution]
    cases tree.resolve reference.scope name with
    | none => rfl
    | some found =>
      by_cases top : found.scope = root
      · simp only [top,beq_self_eq_true,if_true]
        split <;> split <;> rfl
      · simp only [beq_iff_eq,top,if_false,within,scopes,parents,selves]

def Demand.param? : Demand → Option String
  | .binding binding => some binding.param
  | _ => none

namespace Captures

def bare (captures : Captures) : Captures := { captures with imports := [] }

lemma bare_add (captures : Captures) (demand : Demand) :
    (captures.add demand).bare = captures.bare.add demand.captured := by
  cases demand with
  | nothing | itself => rfl
  | imported name =>
    simp only [add]
    split <;> rfl
  | binding asked =>
    by_cases known : captures.bindings.any fun known => known.param == asked.param <;>
      simp [add,bare,Demand.captured,known]

lemma bare_foldl_add (demands : List Demand) (captures : Captures) :
    (demands.foldl add captures).bare = (demands.map Demand.captured).foldl add captures.bare := by
  induction demands generalizing captures with
  | nil => rfl
  | cons demand rest ih => rw [foldl_cons,ih,bare_add,map_cons,foldl_cons]

lemma bindings_add (captures : Captures) (demand : Demand) (member : binding ∈ (captures.add demand).bindings) :
    binding ∈ captures.bindings ∨ demand = .binding binding := by
  cases demand with
  | nothing | itself => exact .inl member
  | imported name =>
    simp only [add] at member
    split at member <;> exact .inl member
  | binding asked =>
    simp only [add] at member
    split at member
    · exact .inl member
    · exact (mem_append.1 member).imp_right fun new => by rw [mem_singleton.1 new]

def params (captures : Captures) : List String := captures.bindings.map Binding.param

lemma params_add (captures : Captures) (demand : Demand) : (captures.add demand).params =
    match demand.param? with
    | some param => if param ∈ captures.params then captures.params else captures.params ++ [param]
    | none => captures.params := by
  cases demand with
  | nothing | itself => rfl
  | imported name =>
    simp only [add]
    split <;> rfl
  | binding asked =>
    simp only [add,params,Demand.param?,any_eq_true,beq_iff_eq,mem_map]
    split
    · rfl
    · exact map_append

lemma selfReferencing_add (captures : Captures) (demand : Demand) :
    (captures.add demand).selfReferencing = true ↔ captures.selfReferencing = true ∨ demand = .itself := by
  cases demand with
  | nothing | itself => simp [add]
  | imported name | binding asked =>
    simp only [add]
    split <;> simp

/-- What is captured has been asked for, each parameter once and in the order of the first demands. -/
lemma foldl_add (demands : List Demand) :
    let captures := demands.foldl add {}
    (∀ binding ∈ captures.bindings, .binding binding ∈ demands) ∧
    captures.params = (demands.filterMap Demand.param?).eraseDups ∧ captures.params.Nodup ∧
    (captures.selfReferencing = true ↔ .itself ∈ demands) := by
  induction demands using reverseRecOn with
  | nil => simp [params]
  | append_singleton demands demand ih =>
    obtain ⟨asked,listed,once,itself⟩ := ih
    simp only [foldl_concat,selfReferencing_add,itself,params_add,filterMap_append, eraseDups_append,← listed]
    refine ⟨fun binding member => ?_,?_,?_,by simp [eq_comm]⟩
    · rw [mem_append,mem_singleton]
      exact (bindings_add _ _ member).imp (asked binding) Eq.symm
    · cases asks : demand.param? with
      | none => simp [asks,removeAll]
      | some param =>
        have known : param ∈ (demands.foldl add {}).params ↔ param ∈ demands.filterMap Demand.param? := by
          rw [listed,mem_eraseDups]
        simp only [known,filterMap_cons,asks,filterMap_nil,cons_removeAll]
        by_cases old : param ∈ demands.filterMap Demand.param?
        · simp [old,removeAll]
        · simp only [old,if_false,contains_eq_mem,decide_false,if_true]
          rfl
    · split
      · split
        · exact once
        · rename_i param _ new
          exact nodup_append.2 ⟨once,by simp,by simpa using fun old held => ne_of_mem_of_not_mem held new⟩
      · exact once

end Captures

def referencesIn (tree : Scoping) (s : ScopeIndex) : List Reference := ((tree.scope? s).map Scope.references).getD []

lemma mem_referencesIn : reference ∈ tree.referencesIn s ↔
      ∃ scope, tree.scope? s = some scope ∧ reference ∈ scope.references := by
  unfold referencesIn
  cases tree.scope? s <;> simp

lemma referencesIn_congr (same : other.bare = tree.bare) (s : ScopeIndex) :
    other.referencesIn s = tree.referencesIn s := by
  have equal : (other.bare.scope? s).map Scope.references = (tree.bare.scope? s).map Scope.references := by rw [same]
  rw [scope?_bare,scope?_bare,Option.map_map,Option.map_map] at equal
  exact congrArg (·.getD []) equal

structure Bound (tree : Scoping) (i : ClosureIndex) (closure : Closure) : Prop where
  asked : ∀ binding ∈ closure.bindings, ∃ reference ∈ tree.referencesIn closure.scope,
    tree.demand i closure reference = .binding binding
  given : ∀ reference ∈ tree.referencesIn closure.scope, ∀ binding,
    tree.demand i closure reference = .binding binding → binding.param ∈ closure.params
  itself : ∀ reference ∈ tree.referencesIn closure.scope,
    tree.demand i closure reference = .itself → closure.selfReferencing = true
  once : closure.params.Nodup

lemma captures_eq (tree : Scoping) (i : ClosureIndex) (closure : Closure) : tree.captures i closure =
    ((tree.referencesIn closure.scope).map (tree.demand i closure)).foldl Captures.add {} := by
  rw [foldl_map]
  rfl

lemma captures_congr (same : other.bare = tree.bare) (equal : closure.bare = before.bare)
    (i : ClosureIndex) : (other.captures i closure).bare = (tree.captures i before).bare := by
  have scopes : closure.scope = before.scope := (congrArg Closure.scope equal :)
  rw [captures_eq,captures_eq,Captures.bare_foldl_add,Captures.bare_foldl_add,map_map,map_map,
    scopes,referencesIn_congr same]
  exact congrArg (foldl _ _) (map_congr_left fun reference _ => demand_captured_congr same equal i reference)

def Filled (tree : Scoping) (i : ClosureIndex) (closure : Closure) : Prop :=
  (tree.captures i closure).bare = ⟨closure.bindings,closure.selfReferencing,[]⟩

section
variable (filled : tree.Filled i closure)
include filled

lemma Filled.of_bare_eq (same : other.bare = tree.bare) :
    other.Filled i closure := (captures_congr same rfl i).trans filled

lemma Filled.unique (filled' : other.Filled i closure')
    (same : other.bare = tree.bare) (equal : closure'.bare = closure.bare) : closure' = closure := by
  have captures := filled'.symm.trans ((captures_congr same equal i).trans filled)
  cases closure
  cases closure'
  simp_all [Closure.bare]

lemma Filled.spec : (∀ binding ∈ closure.bindings, ∃ reference ∈ tree.referencesIn closure.scope,
      tree.demand i closure reference = .binding binding) ∧
    closure.params = ((tree.referencesIn closure.scope).filterMap fun reference =>
      (tree.demand i closure reference).param?).eraseDups ∧
    closure.params.Nodup ∧
    (closure.selfReferencing = true ↔ ∃ reference ∈ tree.referencesIn closure.scope,
      tree.demand i closure reference = .itself) := by
  have fold := Captures.foldl_add ((tree.referencesIn closure.scope).map (tree.demand i closure))
  have bindings : (tree.captures i closure).bindings = closure.bindings := (congrArg Captures.bindings filled :)
  have self : (tree.captures i closure).selfReferencing = closure.selfReferencing :=
    (congrArg Captures.selfReferencing filled :)
  simp only [← captures_eq,Captures.params,bindings,self,filterMap_map,mem_map] at fold
  exact fold

lemma Filled.bound : tree.Bound i closure := by
  obtain ⟨asked,params,once,itself⟩ := filled.spec
  refine ⟨asked,fun reference listed binding asks => ?_,fun reference listed asks => ?_,once⟩
  · rw [params,mem_eraseDups]
    exact mem_filterMap.2 ⟨reference,listed,by rw [asks]; rfl⟩
  · exact itself.2 ⟨reference,listed,asks⟩

end

/-! ### Filling in captures -/

lemma updateScope_bare (s : ScopeIndex) (keeps : ∀ scope, (change scope).bare = scope.bare) :
    (tree.updateScope s change).bare = tree.bare := by
  have scopes : (tree.scopes.modify s change).map Scope.bare = tree.scopes.map Scope.bare := by
    refine ext_getElem? fun i => ?_
    rw [getElem?_map,getElem?_map,getElem?_modify]
    cases tree.scopes[i]? with
    | none => rfl
    | some scope =>
      simp only [Option.map_some,Option.map_eq_map]
      split
      · rw [keeps]
      · rfl
  simp only [bare,updateScope,scopes]

lemma updateClosure_bare (i : ClosureIndex) (keeps : ∀ closure, (change closure).bare = closure.bare) :
    (tree.updateClosure i change).bare = tree.bare := by
  have closures : (tree.closures.modify i change).map Closure.bare = tree.closures.map Closure.bare := by
    refine ext_getElem? fun j => ?_
    rw [getElem?_map,getElem?_map,getElem?_modify]
    cases tree.closures[j]? with
    | none => rfl
    | some closure =>
      simp only [Option.map_some,Option.map_eq_map]
      split
      · rw [keeps]
      · rfl
  simp only [bare,updateClosure,closures]

lemma bindClosure_bare (tree : Scoping) (i : ClosureIndex) : (tree.bindClosure i).bare = tree.bare := by
  unfold bindClosure
  split
  · rfl
  · refine Eq.trans (updateClosure_bare i ?_) (updateScope_bare _ ?_)
    · exact fun _ => rfl
    · exact fun _ => rfl

lemma closure?_updateClosure (i j : ClosureIndex) (change : Closure → Closure) :
    (tree.updateClosure i change).closure? j =
      (tree.closure? j).map fun closure => if i = j then change closure else closure := by
  simp only [updateClosure,closure?,getElem?_modify]
  cases tree.closures[j]? <;> split <;> simp_all

lemma closure?_bindClosure_of_ne (other : i ≠ j) : (tree.bindClosure i).closure? j = tree.closure? j := by
  unfold bindClosure
  split
  · rfl
  · simp [closure?_updateClosure,other]

lemma filled_bindClosure (found : (tree.bindClosure i).closure? i = some closure) :
    (tree.bindClosure i).Filled i closure := by
  obtain ⟨before, entry,equal⟩ := closure?_of_bare_eq (bindClosure_bare tree i) found
  refine (captures_congr (bindClosure_bare tree i) equal i).trans ?_
  simp only [bindClosure, entry,closure?_updateClosure,closure?_updateScope,if_true,Option.map_some,
    Option.some.injEq] at found
  rw [← found]
  rfl

lemma foldl_bindClosure (ids done : List ClosureIndex)
    (filled : ∀ i ∈ done, ∀ closure, tree.closure? i = some closure → tree.Filled i closure) :
    (ids.foldl bindClosure tree).bare = tree.bare ∧
    ∀ i ∈ done ++ ids, ∀ closure, (ids.foldl bindClosure tree).closure? i = some closure →
      (ids.foldl bindClosure tree).Filled i closure := by
  induction ids generalizing tree done with
  | nil => simpa using filled
  | cons id rest ih =>
    have step : ∀ i ∈ done ++ [id], ∀ closure, (tree.bindClosure id).closure? i = some closure →
        (tree.bindClosure id).Filled i closure := by
      intro i member closure found
      by_cases here : id = i
      · subst here
        exact filled_bindClosure found
      · have earlier : i ∈ done := by simpa [Ne.symm here] using member
        rw [closure?_bindClosure_of_ne here] at found
        exact (filled i earlier closure found).of_bare_eq (bindClosure_bare tree id)
    obtain ⟨same,all⟩ := ih (done ++ [id]) step
    exact ⟨same.trans (bindClosure_bare tree id),by simpa using all⟩

lemma bindAll_bare (tree : Scoping) : tree.bindAll.bare = tree.bare := (foldl_bindClosure _ [] (by simp)).1

section
variable (found : tree.bindAll.closure? i = some closure)
include found

lemma filled_bindAll : tree.bindAll.Filled i closure := by
  obtain ⟨before, entry,_⟩ := closure?_of_bare_eq (bindAll_bare tree) found
  have listed : i ∈ (range tree.closures.length).reverse := by simpa using (List.getElem?_eq_some_iff.1 entry).1
  exact (foldl_bindClosure _ [] (by simp)).2 i (by simpa using listed) closure found

lemma bound_bindAll : tree.bindAll.Bound i closure :=
  (filled_bindAll found).bound

end

lemma Sound.bindAll (sound : tree.Sound nests current) : tree.bindAll.Sound nests current :=
  sound.of_bare_eq (bindAll_bare tree)

end Scoping

lemma analyze_bindAll_sound (setting : Selecting) (program : Script.Program) :
    (analyze setting program).tree.bindAll.Sound False Scoping.root :=
  Scoping.Sound.bindAll (analyze_sound setting program False.elim)

end Resumable
