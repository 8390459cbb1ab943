import Resumable.Proofs.Receivers

/-! The tree of scopes by itself. Whatever is opened, declared, exported and made a closure, in whatever order, a
scope comes after the one that it is opened in and is listed there once; so every way up ends at the program. -/
namespace Resumable.Scoping
open Script List

/-- The trees that are made from the scope of a program. A scope is opened in one that is there. -/
inductive Made (program : Span) : Scoping → Prop where
  | start : Made program (ofProgram program)
  | openScope (kind : ScopeRole) (owner : Span) : Made program tree → outer < tree.scopes.length →
    Made program (tree.openScope kind outer owner).2
  | declare (s : ScopeIndex) (name : String) : Made program tree → Made program (tree.declare s name)
  | addExport (s : ScopeIndex) (name : String) (closure : ClosureIndex) : Made program tree →
    Made program (tree.addExport s name closure)
  | insertClosure (closure : Closure) : Made program tree → Made program (tree.insertClosure closure).2

def parent? (tree : Scoping) (s : ScopeIndex) : Option ScopeIndex := (tree.scope? s).bind Scope.parent

/-- The scopes that are opened in a scope, in order. -/
def openedIn (tree : Scoping) (s : ScopeIndex) : List ScopeIndex :=
  (range tree.scopes.length).filter fun inner => tree.parent? inner = some s

/-- What a scope knows a name as. What is declared goes before what is exported. -/
def Scope.Means (scope : Scope) (name : String) : Referent → Prop
  | .declaration => name ∈ scope.declarations
  | .closure id => name ∉ scope.declarations ∧ Keyed.get? name scope.exports = some id

structure Arena (tree : Scoping) : Prop where
  rooted : root < tree.scopes.length ∧ ∀ {s scope}, tree.scope? s = some scope → (scope.parent = none ↔ s = root)
  parented : tree.Parented
  /-- So each scope is listed once by the scope around it, and by no other. -/
  children : ∀ {s scope}, tree.scope? s = some scope → scope.children = tree.openedIn s
  thisOwner : ∀ {s scope}, tree.scope? s = some scope →
    (tree.chain s).find? (fun id => (tree.kindOf id).bindsThis) = some scope.thisOwner
  chain : ∀ {s scope}, tree.scope? s = some scope → tree.chain s = s :: (scope.parent.map tree.chain).getD []
  /-- Every search goes on in the scope around, which has a smaller number. -/
  searches : ∀ {s scope}, tree.scope? s = some scope →
    (∀ name, tree.resolve s name = (tree.resolveIn name s).or (scope.parent.bind (tree.resolve · name))) ∧
    tree.ownerOfArguments s = (if scope.kind = .arrow ∨ scope.kind = .loop then scope.parent.bind tree.ownerOfArguments
      else if scope.kind.isFunction then some s else none) ∧
    tree.functionScope s = (if scope.kind = .loop then (scope.parent.map tree.functionScope).getD root else s) ∧
    (∀ outer, tree.liesWithin s outer = (s == outer || scope.parent.any (tree.liesWithin · outer))) ∧
    tree.regionAround s = (tree.liftedAt s).or (scope.parent.bind tree.regionAround)
  order : (∀ {s}, s < tree.scopes.length → tree.liesWithin s s = true) ∧
    (∀ {s outer}, tree.liesWithin s outer = true → tree.liesWithin outer s = true → s = outer) ∧
    ∀ {s outer further}, tree.liesWithin s outer = true → tree.liesWithin outer further = true →
      tree.liesWithin s further = true
  nearest : ∀ {s name resolution}, tree.resolve s name = some resolution → tree.liesWithin s resolution.scope = true ∧
    (∃ scope, tree.scope? resolution.scope = some scope ∧ Scope.Means scope name resolution.target) ∧
    ∀ other, tree.liesWithin s other = true → tree.Knows other name → tree.liesWithin resolution.scope other = true
  unknown : ∀ {s name}, tree.resolve s name = none ↔ ∀ outer, tree.liesWithin s outer = true → ¬tree.Knows outer name

variable {program : Span} {tree other : Scoping} {s outer : ScopeIndex} {scope : Scope} {name : String}

/-! ### What each operation keeps -/

structure Grown (tree : Scoping) : Prop extends tree.Attributed where
  orphan : tree.parent? root = none ∧ root < tree.scopes.length
  children : ∀ {s scope}, tree.scope? s = some scope → scope.children = tree.openedIn s

section
variable (grown : tree.Grown)
include grown

lemma Grown.update {change : Scope → Scope} (id : ScopeIndex) (is : other.scopes = tree.scopes.modify id change)
    (later : tree.Grows other) (references : ∀ s, other.referencesIn s = tree.referencesIn s)
    (keeps : ∀ scope, (change scope).parent = scope.parent ∧ (change scope).children = scope.children) :
    other.Grown := by
  have length : other.scopes.length = tree.scopes.length := by rw [is,length_modify]
  have entries (s) : other.scope? s = (tree.scope? s).map fun scope => if id = s then change scope else scope := by
    rw [scope?,is,getElem?_modify]
    rfl
  have kept (s scope) : (if id = s then change scope else scope).parent = scope.parent ∧
      (if id = s then change scope else scope).children = scope.children := by
    split
    exacts [keeps scope,⟨rfl,rfl⟩]
  have parent (s) : other.parent? s = tree.parent? s := by
    rw [parent?,entries,parent?]
    cases tree.scope? s <;> simp [kept]
  refine ⟨grown.of_grows later length fun member => .inl ⟨_,references _ ▸ member⟩,by
    rw [parent,length]; exact grown.orphan,fun {s _} found => ?_⟩
  rw [entries] at found
  obtain ⟨old,there,rfl⟩ := Option.map_eq_some_iff.1 found
  rw [(kept s old).2,grown.children there]
  simp only [openedIn,length,parent]

lemma Grown.openScope (kind : ScopeRole) (owner : Span) (inside : outer < tree.scopes.length) :
    (tree.openScope kind outer owner).2.Grown := by
  have length : (tree.openScope kind outer owner).2.scopes.length = tree.scopes.length + 1 := by
    simp [Scoping.openScope]
  have parent {s} (low : s < tree.scopes.length) : (tree.openScope kind outer owner).2.parent? s = tree.parent? s := by
    rw [parent?,scope?_openScope_old kind outer owner low,parent?]
    cases tree.scope? s with
    | none => rfl
    | some scope => simp only [Option.map_some,Option.bind_some,apply_ite Scope.parent,ite_self]
  have opened (s) : (tree.openScope kind outer owner).2.openedIn s =
      tree.openedIn s ++ if outer = s then [tree.scopes.length] else [] := by
    obtain ⟨scope,found,up,-⟩ := scope?_openScope_new tree kind outer owner
    rw [openedIn,length,range_succ,filter_append,
      filter_congr fun inner listed => by rw [parent (mem_range.1 listed)],openedIn]
    by_cases here : outer = s
    · subst here
      simp [parent?,found,up]
    · simp [parent?,found,up,here]
  refine ⟨grown.toAttributed.openScope kind inside owner,?_,fun {s scope} found => ?_⟩
  · rw [parent grown.orphan.2,length]
    exact ⟨grown.orphan.1,grown.orphan.2.trans (Nat.lt_succ_self _)⟩
  rw [opened]
  rcases scope?_openScope_cases found with ⟨rfl,rfl⟩ | ⟨old,_,there,-⟩
  · have none : tree.openedIn tree.scopes.length = [] := by
      refine filter_eq_nil_iff.2 fun inner listed isParent => ?_
      obtain ⟨scope,found,up⟩ := Option.bind_eq_some_iff.1 (of_decide_eq_true isParent)
      exact (mem_range.1 listed).asymm (grown.parented found up)
    rw [none,if_neg inside.ne,append_nil]
  · rw [scope?_openScope_old kind outer owner (lt_of_scope? there),there,Option.map_some] at found
    cases found
    rw [← grown.children there]
    split
    · rfl
    · rw [append_nil]

end

lemma Made.grown (made : Made program tree) : tree.Grown := by
  induction made with
  | start =>
    refine ⟨attributed_ofProgram program,⟨rfl,Nat.zero_lt_one⟩,fun {s _} found => ?_⟩
    cases s <;> cases found
    rfl
  | openScope kind owner _ inside ih => exact ih.openScope kind owner inside
  | declare s name _ ih =>
    exact ih.update s rfl (declare_extends s name).grows (referencesIn_declare s name) fun _ => by
      split <;> exact ⟨rfl,rfl⟩
  | addExport s name closure _ ih =>
    exact ih.update s rfl (addExport_extends s name closure).grows (referencesIn_updateScope fun _ => rfl)
      fun _ => ⟨rfl,rfl⟩
  | insertClosure closure _ ih =>
    refine ih.update closure.scope rfl (fun s scope found => ⟨_,by rw [scope?_insertClosure,found]; rfl,?_⟩)
      (referencesIn_insertClosure closure) fun _ => ⟨rfl,rfl⟩
    dsimp only
    split <;> exact ⟨rfl,rfl,rfl,id⟩

/-! ### What is found -/

lemma means_of_resolve {resolution : Resolution} (found : tree.resolve s name = some resolution) :
    ∃ scope, tree.scope? resolution.scope = some scope ∧ Scope.Means scope name resolution.target := by
  have known := resolveIn_of_resolve found
  obtain ⟨s,target⟩ := resolution
  unfold resolveIn at known
  split at known
  · next scope there =>
    refine ⟨scope,there,?_⟩
    split at known
    · next declared =>
      cases known
      exact contains_iff_mem.1 declared
    · next undeclared =>
      obtain ⟨closure,exported,⟨⟩⟩ := Option.map_eq_some_iff.1 known
      exact ⟨fun declared => undeclared (contains_iff_mem.2 declared),exported⟩
  · cases known

theorem made_trees_are_arenas (made : Made program tree) : tree.Arena := by
  have grown := made.grown
  have parented := grown.parented
  refine ⟨⟨grown.orphan.2,fun found => ⟨grown.rooted found,?_⟩⟩,parented,grown.children,grown.owners,chain_eq parented,
    fun {s scope} found => ⟨resolve_eq parented found,?_⟩,⟨fun there => ?_,fun one two => ?_,fun one two => ?_⟩,
    fun found => ?_,?_⟩
  · rintro rfl
    simpa [parent?,found] using grown.orphan.1
  · have kind : tree.kindOf s = scope.kind := by simp [kindOf,found]
    simp only [ownerOfArguments,functionScope,liesWithin,regionAround,chain_eq parented found]
    refine ⟨?_,?_,fun outer => ?_,?_⟩
    · cases scope.parent <;> cases sort : scope.kind <;> simp [kind,sort,ScopeRole.isFunction,ownerOfArguments]
    · cases scope.parent <;> by_cases loop : scope.kind = .loop <;> simp [kind,loop,functionScope]
    · cases scope.parent <;> rw [contains_cons,BEq.comm] <;> rfl
    · cases scope.parent <;> cases here : tree.liftedAt s <;> simp [here,regionAround]
  · obtain ⟨scope,found⟩ := scope?_of_lt there
    exact liesWithin_iff.2 (self_mem_chain parented found)
  · rw [liesWithin_iff] at one two
    exact Nat.le_antisymm (le_of_mem_chain parented two) (le_of_mem_chain parented one)
  · rw [liesWithin_iff] at one two ⊢
    exact mem_chain_trans parented one two
  · simp only [liesWithin_iff]
    refine ⟨resolve_scope_mem_chain found,means_of_resolve found,fun other around known => ?_⟩
    by_contra outside
    have same := resolve_inside found parented around outside
    obtain ⟨scope,there⟩ := scope?_of_mem_chain parented around
    obtain ⟨hit,here⟩ := Option.isSome_iff_exists.1 (knows_iff_resolveIn.1 known)
    rw [resolve_eq parented there,here] at same
    cases same
    rw [resolveIn_scope here] at outside
    exact outside (self_mem_chain parented there)
  · simp [liesWithin_iff,resolve,findSome?_eq_none_iff,knows_iff_resolveIn]

/-- A function with a variable, and in it a loop with an arrow function that is a closure. -/
def arrowInLoop : Scoping :=
  let outer := ((ofProgram ⟨0,50⟩).openScope .function root ⟨0,50⟩).2.declare 1 "x"
  let inner := ((outer.openScope .loop 1 ⟨20,48⟩).2.openScope .arrow 2 ⟨30,46⟩).2
  (inner.insertClosure
    { name := none, exportName := "f", kind := .arrow, context := .expression, scope := 3, parent := 2
      span := ⟨30,46⟩, paramsStart := 30 }).2.addExport 2 "f" 0

theorem arrow_in_program_is_arena : arrowInLoop.Arena ∧
    arrowInLoop.resolve 3 "x" = some ⟨1, .declaration⟩ ∧ arrowInLoop.resolve 3 "f" = some ⟨2, .closure 0⟩ := by
  have made : Made ⟨0, 50⟩ arrowInLoop := by
    refine .addExport _ _ _ (.insertClosure _ (.openScope _ _ (.openScope _ _ (.declare _ _
      (.openScope _ _ .start ?_)) ?_) ?_)) <;> decide
  exact ⟨made_trees_are_arenas made, by decide +kernel, by decide +kernel⟩

end Resumable.Scoping
