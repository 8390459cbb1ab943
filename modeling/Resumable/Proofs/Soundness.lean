import Resumable.Proofs.Chain
import Resumable.Proofs.Keyed
import Resumable.Proofs.Walking

/-! The trees that programs give. Scopes come after their parents, closures and their own scopes are one to one, a
scope lists its own references and those of all closed scopes within it, and exports name closures that stand in the
scope. -/
namespace Resumable
open Script Scoping
variable {id s parent : ScopeIndex} {scope : Scope} {i : ClosureIndex} {closure : Closure}
  {before : Scoping} {site : Site} {setting : Selecting} {guard : Guard}

lemma getElem?_concat_cases {α : Type} {values : List α} {value last : α} {i : Nat}
    (found : (values ++ [last])[i]? = some value) : values[i]? = some value ∨ i = values.length ∧ value = last := by
  rw [List.getElem?_append] at found
  split at found
  · exact .inl found
  · rename_i beyond
    obtain ⟨low,rfl⟩ := List.getElem?_eq_some_iff.1 found
    rw [List.length_singleton] at low
    exact .inr ⟨by omega,List.getElem_singleton low⟩

/-- The name that stands for a closure in the scope around it. -/
def Closure.boundName (closure : Closure) : String :=
  if closure.context.introducesItself then closure.name.getD closure.exportName
  else closure.exportName

namespace Scope

/-- A scope knows the names that are declared in it, and those of the closures it exports. -/
def knows (scope : Scope) (name : String) : Bool :=
  scope.declarations.contains name || (Keyed.get? name scope.exports).isSome

/-- A later state of a scope, which stands where it stood and has forgotten no name. -/
structure Becomes (scope later : Scope) : Prop where
  parent : later.parent = scope.parent
  kind : later.kind = scope.kind
  thisOwner : later.thisOwner = scope.thisOwner
  knows : ∀ {name}, scope.knows name → later.knows name

lemma Becomes.refl (scope : Scope) : scope.Becomes scope := ⟨rfl,rfl,rfl,id⟩

lemma Becomes.trans (first : scope.Becomes middle) (second : middle.Becomes last) : scope.Becomes last :=
  ⟨second.parent.trans first.parent,second.kind.trans first.kind,
    second.thisOwner.trans first.thisOwner,fun known => second.knows (first.knows known)⟩

end Scope

namespace Scoping

/-! ### Updates of a tree -/

variable {tree : Scoping}

@[simp] lemma scope?_updateScope (id s : ScopeIndex) (change : Scope → Scope) : (tree.updateScope id change).scope? s =
      (tree.scope? s).map fun scope => if id = s then change scope else scope := by
  simp only [updateScope,scope?,List.getElem?_modify]
  cases tree.scopes[s]? <;> split <;> simp_all

@[simp] lemma closure?_updateScope (id : ScopeIndex) (change : Scope → Scope) (i : ClosureIndex) :
    (tree.updateScope id change).closure? i = tree.closure? i := rfl

lemma exists_of_scope?_updateScope (found : (tree.updateScope id change).scope? s = some scope) :
    ∃ old, tree.scope? s = some old ∧ scope = if id = s then change old else old := by
  rw [scope?_updateScope] at found
  obtain ⟨old, entry,equal⟩ := Option.map_eq_some_iff.1 found
  exact ⟨old, entry,equal.symm⟩

lemma chain_congr {other : Scoping} (same : ∀ s, (other.scope? s).map Scope.parent = (tree.scope? s).map Scope.parent)
    (s : ScopeIndex) : other.chain s = tree.chain s := by
  unfold chain
  generalize s + 1 = fuel
  induction fuel generalizing s with
  | zero => rfl
  | succ fuel ih =>
    have here := same s
    simp only [chainOf]
    cases found : tree.scope? s with
    | none =>
      simp only [found,Option.map_none,Option.map_eq_none_iff] at here
      simp only [here]
    | some scope =>
      simp only [found,Option.map_some,Option.map_eq_some_iff] at here
      obtain ⟨later, entry,parent⟩ := here
      simp only [entry,parent,ih]

lemma chain_updateScope (id : ScopeIndex) (keeps : ∀ scope, (change scope).parent = scope.parent) (s : ScopeIndex) :
    (tree.updateScope id change).chain s = tree.chain s := by
  refine chain_congr (fun s => ?_) s
  rw [scope?_updateScope,Option.map_map]
  congr 1
  funext scope
  simp only [Function.comp_apply]
  split
  · exact keeps scope
  · rfl

lemma Parented.updateScope (parented : tree.Parented) (id : ScopeIndex)
    (keeps : ∀ scope, (change scope).parent = scope.parent) :
    (tree.updateScope id change).Parented := by
  intro s parent scope found up
  obtain ⟨old, entry,rfl⟩ := exists_of_scope?_updateScope found
  refine parented entry ?_
  split at up
  · exact (keeps old).symm.trans up
  · exact up

/-- A later state of a tree: scopes have been added, and those that were there stand where they
stood. -/
def Grows (before after : Scoping) : Prop :=
  ∀ ⦃s scope⦄, before.scope? s = some scope → ∃ later, after.scope? s = some later ∧ scope.Becomes later

/-- A later state of a tree in which no scope that was there has been made a closure's. -/
def Extends (before after : Scoping) : Prop :=
  ∀ ⦃s scope⦄, before.scope? s = some scope →
    ∃ later, after.scope? s = some later ∧ scope.Becomes later ∧ later.closure = scope.closure

namespace Extends

lemma refl (tree : Scoping) : Extends tree tree := fun _ scope found => ⟨scope,found,.refl scope,rfl⟩

lemma trans (one : Extends first second) (two : Extends second third) : Extends first third := by
  intro s scope found
  obtain ⟨middle,found,same,mark⟩ := one found
  obtain ⟨last,found,also,mark'⟩ := two found
  exact ⟨last,found,same.trans also,mark'.trans mark⟩

lemma updateScope (id : ScopeIndex)
    (keeps : ∀ scope, scope.Becomes (change scope) ∧ (change scope).closure = scope.closure) :
    Extends tree (tree.updateScope id change) := by
  intro s scope found
  refine ⟨_,by rw [scope?_updateScope,found]; rfl,?_⟩
  dsimp only
  split
  · exact keeps scope
  · exact ⟨.refl scope,rfl⟩

lemma grows (later : Extends before after) : Grows before after := fun _ _ found =>
  have ⟨last, entry,same,_⟩ := later found
  ⟨last, entry,same⟩

end Extends

namespace Grows

lemma trans (one : Grows first second) (two : Grows second third) : Grows first third := by
  intro s scope found
  obtain ⟨middle,found,same⟩ := one found
  obtain ⟨last,found,also⟩ := two found
  exact ⟨last,found,same.trans also⟩

variable {after : Scoping} (later : Grows before after)
include later

lemma length_le : before.scopes.length ≤ after.scopes.length := by
  by_contra shorter
  obtain ⟨scope,found⟩ := scope?_of_lt (Nat.lt_of_not_le shorter)
  obtain ⟨last, entry,-⟩ := later found
  exact Nat.lt_irrefl _ (lt_of_scope? entry)

lemma earlier (length : after.scopes.length = before.scopes.length) (found : after.scope? s = some scope) :
    ∃ old, before.scope? s = some old ∧ old.Becomes scope := by
  obtain ⟨old,there⟩ := scope?_of_lt (length ▸ lt_of_scope? found)
  obtain ⟨last, entry,same⟩ := later there
  cases entry.symm.trans found
  exact ⟨old,there,same⟩

lemma chain_eq (parented : before.Parented) (parented' : after.Parented)
    (bound : id < before.scopes.length) : after.chain id = before.chain id := by
  induction id using parented.induction with
  | missing id missing =>
    obtain ⟨scope,found⟩ := scope?_of_lt bound
    simp [missing] at found
  | orphan id scope found up =>
    obtain ⟨last,found',same⟩ := later found
    rw [chain_of_orphan found up,chain_of_orphan found' (same.parent.trans up)]
  | nested id scope parent found up ih =>
    obtain ⟨last,found',same⟩ := later found
    rw [chain_of_parent parented found up,chain_of_parent parented' found' (same.parent.trans up),
      ih ((parented found up).trans bound)]

end Grows
end Scoping

/-! ### What a move leaves alone -/

namespace Scoping
open List
variable {tree : Scoping}

lemma scope?_openScope_new (tree : Scoping) (kind : ScopeRole) (parent : ScopeIndex) (owner : Span) :
    ∃ scope, (tree.openScope kind parent owner).2.scope? tree.scopes.length = some scope ∧
      scope.parent = some parent ∧ scope.closure = none ∧ scope.references = [] ∧
      scope.exports = [] := by
  simp [openScope,scope?]

lemma scope?_openScope_old (kind : ScopeRole) (parent : ScopeIndex) (owner : Span) (bound : id < tree.scopes.length) :
    (tree.openScope kind parent owner).2.scope? id = (tree.scope? id).map fun scope =>
      if parent = id then { scope with children := scope.children ++ [tree.scopes.length] }
      else scope := by
  simp only [openScope,scope?,getElem?_append_left,length_modify,bound, getElem?_modify]
  rfl

lemma scope?_openScope_cases (found : (tree.openScope kind parent owner).2.scope? s = some scope) :
    s = tree.scopes.length ∧ scope = { kind := kind, parent := some parent, owner := owner, thisOwner :=
            if kind.bindsThis then tree.scopes.length
            else ((tree.scope? parent).map Scope.thisOwner).getD root } ∨
      ∃ old children, tree.scope? s = some old ∧ scope = { old with children } := by
  rcases Nat.lt_or_ge s tree.scopes.length with low | beyond
  · rw [scope?_openScope_old kind parent owner low] at found
    obtain ⟨old, entry,rfl⟩ := Option.map_eq_some_iff.1 found
    split
    · exact .inr ⟨old,_, entry,rfl⟩
    · exact .inr ⟨old,old.children, entry,rfl⟩
  · have last : s = tree.scopes.length := by
      have bound := lt_of_scope? found
      rw [openScope,length_append,length_modify] at bound
      exact (Nat.le_of_lt_succ bound).antisymm beyond
    subst last
    simp only [openScope,scope?,getElem?_append_right,length_modify,le_refl,Nat.sub_self,
      getElem?_cons_zero,Option.some.injEq] at found
    exact .inl ⟨rfl,found.symm⟩

lemma Parented.openScope (parented : tree.Parented) (inside : parent < tree.scopes.length) (kind : ScopeRole)
    (owner : Span) : (tree.openScope kind parent owner).2.Parented := by
  intro s up scope found isParent
  rcases scope?_openScope_cases found with ⟨rfl,rfl⟩ | ⟨before,_, entry,rfl⟩
  · cases isParent
    exact inside
  · exact parented entry isParent

lemma openScope_extends (tree : Scoping) (kind : ScopeRole) (parent : ScopeIndex) (owner : Span) :
    Extends tree (tree.openScope kind parent owner).2 := by
  intro id scope found
  rw [scope?_openScope_old kind parent owner (lt_of_scope? found),found]
  refine ⟨_,rfl,?_⟩
  split <;> exact ⟨⟨rfl,rfl,rfl,fun known => known⟩,rfl⟩

lemma passUp_extends (id : ScopeIndex) : Extends tree (tree.passUp id) := by
  unfold passUp
  split
  · split
    · exact Extends.updateScope _ fun scope => ⟨⟨rfl,rfl,rfl,fun known => known⟩,rfl⟩
    · exact .refl tree
  · exact .refl tree

lemma scope?_insertClosure (closure : Closure) (s : ScopeIndex) :
    (tree.insertClosure closure).2.scope? s = (tree.scope? s).map fun scope =>
      if closure.scope = s then { scope with closure := some tree.closures.length } else scope :=
  scope?_updateScope ..

lemma chain_insertClosure (closure : Closure) (s : ScopeIndex) :
    (tree.insertClosure closure).2.chain s = tree.chain s := by
  refine chain_congr (fun s => ?_) s
  rw [scope?_insertClosure,Option.map_map]
  congr 1
  funext scope
  simp only [Function.comp_apply]
  split <;> rfl

lemma addExport_extends (id : ScopeIndex) (name : String) (closure : ClosureIndex) :
    Extends tree (tree.addExport id name closure) := by
  refine Extends.updateScope _ fun scope => ⟨⟨rfl,rfl,rfl,fun known => ?_⟩,rfl⟩
  simp only [Scope.knows,Bool.or_eq_true] at known ⊢
  refine known.imp_right fun exported => ?_
  rw [Keyed.get?_insert]
  split <;> simp [exported]

lemma addImport_extends (name : String) : Extends tree (tree.addImport name) :=
  Extends.updateScope _ fun _ => ⟨⟨rfl,rfl,rfl,fun known => known⟩,rfl⟩

lemma declare_extends (id : ScopeIndex) (name : String) : Extends tree (tree.declare id name) := by
  refine Extends.updateScope _ fun scope => ?_
  split
  · exact ⟨.refl scope,rfl⟩
  · refine ⟨⟨rfl,rfl,rfl,fun known => ?_⟩,rfl⟩
    simp only [Scope.knows,Bool.or_eq_true,contains_iff_mem] at known ⊢
    exact known.imp_left (mem_append_left _)

end Scoping

namespace Builder

variable {builder : Builder}

lemma push_extends (builder : Builder) (kind : ScopeRole) (owner : Span) :
    builder.tree.Extends (builder.push kind owner).tree :=
  openScope_extends ..

@[simp] lemma push_current (kind : ScopeRole) (owner : Span) :
    (builder.push kind owner).current = builder.tree.scopes.length := rfl

lemma record_extends (mention : Mention) (position : Position) (span : Span) :
    builder.tree.Extends (builder.record mention position span).tree :=
  Scoping.Extends.updateScope _ fun _ => ⟨⟨rfl,rfl,rfl,fun known => known⟩,rfl⟩

lemma addImport_extends (id : Ident) : builder.tree.Extends (builder.addImport id).tree :=
  (declare_extends _ _).trans (Scoping.addImport_extends _)

@[simp] lemma exportName_tree (id : Ident) : (builder.exportName id).tree = builder.tree := by
  unfold exportName
  split <;> rfl

@[simp] lemma exportName_current (id : Ident) : (builder.exportName id).current = builder.current := by
  unfold exportName
  split <;> rfl

/-- The scope that is being walked, and the one that it is opened in. -/
structure OpenIn (builder : Builder) (scope parent : ScopeIndex) : Prop where
  current : builder.current = scope
  up : ∃ entry, builder.tree.scope? scope = some entry ∧ entry.parent = some parent

lemma push_openIn (builder : Builder) (kind : ScopeRole) (owner : Span) :
    (builder.push kind owner).OpenIn builder.tree.scopes.length builder.current :=
  have ⟨entry,found,up,_⟩ := Scoping.scope?_openScope_new builder.tree kind builder.current owner
  ⟨rfl, entry,found,up⟩

lemma OpenIn.later {after : Builder} (opened : builder.OpenIn s parent) (grows : builder.tree.Grows after.tree)
    (current : after.current = builder.current) : after.OpenIn s parent := by
  obtain ⟨entry,found,up⟩ := opened.up
  obtain ⟨last, entry,same⟩ := grows found
  exact ⟨current.trans opened.current,last, entry,same.parent.trans up⟩

lemma OpenIn.pop_current (opened : builder.OpenIn s parent) : builder.pop.current = parent := by
  obtain ⟨entry,found,up⟩ := opened.up
  simp [pop,opened.current,found,up]

end Builder

variable {nests : Prop} {builder after : Builder}

lemma closureOf_boundName (unnamed : site.context.introducesItself = true → site.name = none)
    (candidate : Candidate) (parent : ScopeIndex) (exportName : String) :
    (closureOf site candidate parent exportName builder).boundName =
      if site.context.introducesItself then candidate.ownName.getD exportName else exportName := by
  by_cases own : site.context.introducesItself = true
  · simp [closureOf,Closure.boundName,own,unnamed own]
  · simp [closureOf,Closure.boundName,own]

section
variable (setting : Selecting) (site : Site) (candidate : Candidate) (parent : ScopeIndex)

lemma register_eq (unnamed : site.context.introducesItself = true → site.name = none) :
    (register setting site candidate parent builder).2 = builder ∨
    ∃ exportName allocator,
      let closure := closureOf site candidate parent exportName builder
      (register setting site candidate parent builder).2 = { builder with
          tree := (builder.tree.insertClosure closure).2.addExport parent closure.boundName builder.tree.closures.length
          allocator } := by
  simp only [register]
  split
  · exact .inl rfl
  · generalize chooseAlias _ _ _ _ _ = chosen
    refine .inr ⟨chosen.1,chosen.2,?_⟩
    simp only [closureOf_boundName unnamed]
    rfl

lemma register_scopes (found : builder.tree.scope? s = some scope) :
    ∃ later, (register setting site candidate parent builder).2.tree.scope? s = some later ∧
      scope.Becomes later ∧ (s ≠ builder.current → later.closure = scope.closure) := by
  simp only [register]
  split
  · exact ⟨scope,found,.refl scope,fun _ => rfl⟩
  generalize chooseAlias _ _ _ _ _ = chosen
  obtain ⟨last, entry,same,mark⟩ := addExport_extends parent
    (if site.context.introducesItself then candidate.ownName.getD chosen.1 else chosen.1)
    builder.tree.closures.length ((Scoping.scope?_insertClosure
      (closureOf site candidate parent chosen.1 builder) s).trans (congrArg _ found))
  refine ⟨last, entry,.trans ?_ same,fun other => ?_⟩
  · dsimp only
    split <;> exact ⟨rfl,rfl,rfl,fun known => known⟩
  · have apart : ¬(closureOf site candidate parent chosen.1 builder).scope = s := fun here => other here.symm
    simp only [mark,if_neg apart]

lemma register_grows : builder.tree.Grows (register setting site candidate parent builder).2.tree := fun _ _ found =>
  have ⟨last, entry,same,_⟩ := register_scopes setting site candidate parent found
  ⟨last, entry,same⟩

lemma register_current : (register setting site candidate parent builder).2.current = builder.current := by
  simp only [register]
  split <;> rfl

end

lemma register_extends (later : before.Extends builder.tree) (setting : Selecting) (site : Site)
    (candidate : Candidate) (parent : ScopeIndex) (new : before.scopes.length ≤ builder.current) :
    before.Extends (register setting site candidate parent builder).2.tree := by
  intro s scope found
  obtain ⟨middle, entry,same,mark⟩ := later found
  obtain ⟨last, entry,also,marks⟩ := register_scopes setting site candidate parent entry
  have other : s ≠ builder.current := ((lt_of_scope? found).trans_le new).ne
  exact ⟨last, entry,same.trans also,(marks other).trans mark⟩

/-- A walk ends in the scope that it starts in, and leaves the scopes and closures that were there
where they stood. -/
lemma Walk.frame (walk : Walk setting nests guard builder after) :
    builder.tree.Extends after.tree ∧ after.current = builder.current := by
  induction walk with
  | done => exact ⟨.refl _,rfl⟩
  | andThen _ _ one two => exact ⟨one.1.trans two.1,two.2.trans one.2⟩
  | declares => exact ⟨declare_extends ..,rfl⟩
  | records => exact ⟨Builder.record_extends ..,rfl⟩
  | imports => exact ⟨Builder.addImport_extends ..,rfl⟩
  | exports => simpa using Scoping.Extends.refl _
  | list _ _ ih => exact ih
  | @nested builder inside kind owner _ ih =>
    exact ⟨((Builder.push_extends builder kind owner).trans ih.1).trans (passUp_extends _),
      ((builder.push_openIn kind owner).later ih.1.grows ih.2).pop_current⟩
  | @closure builder before after kind owner site candidate _ _ _ _ one two =>
    have start := (Builder.push_extends builder kind owner).trans one.1
    have registered := register_extends start setting site candidate builder.current one.2.symm.le
    have opened := (builder.push_openIn kind owner).later one.1.grows one.2
    exact ⟨(registered.trans two.1).trans (passUp_extends _),
      ((opened.later (register_grows ..) (register_current ..)).later two.1.grows two.2).pop_current⟩

/-! ### What a move keeps -/

namespace Scoping

/-- What holds of a tree at every point of the walk. Spans stand where they should only if `nests`
holds. -/
@[mk_iff] structure Sound (nests : Prop) (tree : Scoping) (current : ScopeIndex) : Prop where
  parented : tree.Parented
  inside : current < tree.scopes.length
  /-- A closure has a scope of its own, in the scope that it is written in. -/
  owned : ∀ {i closure}, tree.closure? i = some closure →
    ∃ scope, tree.scope? closure.scope = some scope ∧ scope.closure = some i ∧ scope.parent = some closure.parent
  owns : ∀ {s scope i}, tree.scope? s = some scope → scope.closure = some i →
    ∃ closure, tree.closure? i = some closure ∧ closure.scope = s
  /-- References of a scope are made within it, and are listed where they are made. -/
  made : ∀ {s scope reference}, tree.scope? s = some scope → reference ∈ scope.references →
    s ∈ tree.chain reference.scope ∧ ∃ own, tree.scope? reference.scope = some own ∧ reference ∈ own.references
  /-- References of a closed scope are those of the scope around it as well. -/
  passed : ∀ {s scope parent outer}, tree.scope? s = some scope → s ∉ tree.chain current →
    scope.parent = some parent → tree.scope? parent = some outer →
    scope.references ⊆ outer.references
  exported : ∀ {s scope name i}, tree.scope? s = some scope → (name, i) ∈ scope.exports →
    ∃ closure, tree.closure? i = some closure ∧ closure.parent = s ∧ closure.boundName = name
  /-- A function comes before the closures within it; a class may not. -/
  ordered : ∀ {i j outer inner}, tree.closure? i = some outer → tree.closure? j = some inner →
    outer.kind ≠ .classLiteral → outer.scope ∈ tree.chain inner.parent → i < j
  placed : nests → ∀ {i closure}, tree.closure? i = some closure →
    closure.context.admits closure.span = true ∧ closure.span.holdsText = true
  visible : nests → ∀ {s scope reference name}, tree.scope? s = some scope →
    reference ∈ scope.references → reference.mention = .identifier name →
    reference.span.holdsText = true

end Scoping

namespace Scoping.Sound
open List
variable {tree : Scoping} {current : ScopeIndex}

lemma parent_lt (sound : tree.Sound nests current) (found : tree.closure? i = some closure) :
    closure.parent < tree.scopes.length := by
  obtain ⟨scope, entry,_,up⟩ := sound.owned found
  exact (sound.parented entry up).trans (lt_of_scope? entry)

/-- A scope is changed: it may gain references that are made within it, and exports of closures that
stand in it. What is closed meanwhile has passed its own references to that scope. -/
lemma change (sound : tree.Sound nests current) (id next : ScopeIndex) (added : List Reference) {change : Scope → Scope}
    (keeps : ∀ scope, (change scope).parent = scope.parent ∧ (change scope).closure = scope.closure)
    (gains : ∀ scope, (change scope).references = scope.references ++ added)
    (exports : ∀ scope name i, (name, i) ∈ (change scope).exports → (name, i) ∈ scope.exports ∨
      ∃ closure, tree.closure? i = some closure ∧ closure.parent = id ∧ closure.boundName = name)
    (valid : next < tree.scopes.length) (opened : added = [] ∨ id ∈ tree.chain next)
    (within : ∀ reference ∈ added, id ∈ tree.chain reference.scope ∧ (reference.scope = id ∨
      ∃ own, tree.scope? reference.scope = some own ∧ reference ∈ own.references))
    (closing : ∀ {s scope}, tree.scope? s = some scope → s ∈ tree.chain current →
      s ∉ tree.chain next → scope.parent = some id ∧ scope.references = added)
    (shown : nests → ∀ reference ∈ added, ∀ name, reference.mention = .identifier name →
      reference.span.holdsText = true) :
    (tree.updateScope id change).Sound nests next := by
  have parents : ∀ scope, (change scope).parent = scope.parent := fun scope => (keeps scope).1
  have old : ∀ {s scope}, (tree.updateScope id change).scope? s = some scope →
      ∃ before, tree.scope? s = some before ∧ scope = (if id = s then change before else before) ∧
        scope.parent = before.parent ∧ scope.closure = before.closure ∧
        scope.references = before.references ++ if id = s then added else [] := by
    intro s scope found
    obtain ⟨before, entry,rfl⟩ := exists_of_scope?_updateScope found
    refine ⟨before, entry,rfl,?_⟩
    by_cases here : id = s
    · simp [here,keeps before,gains before]
    · simp [here]
  have new : ∀ {s before}, tree.scope? s = some before → ∃ scope, (tree.updateScope id change).scope? s = some scope ∧
        scope.parent = before.parent ∧ scope.closure = before.closure ∧
        scope.references = before.references ++ if id = s then added else [] := by
    intro s before entry
    refine ⟨_,by rw [scope?_updateScope, entry]; rfl,?_⟩
    by_cases here : id = s
    · simp [here,keeps before,gains before]
    · simp [here]
  constructor
  · exact sound.parented.updateScope id parents
  · simpa [updateScope] using valid
  · intro i closure found
    obtain ⟨before, entry,mark,up⟩ := sound.owned found
    obtain ⟨scope,found,parent,closure,_⟩ := new entry
    exact ⟨scope,found,closure.trans mark,parent.trans up⟩
  · intro s scope i found mark
    obtain ⟨before, entry,_,_,closure,_⟩ := old found
    exact sound.owns entry (closure.symm.trans mark)
  · intro s scope reference found member
    obtain ⟨before, entry,_,_,_,references⟩ := old found
    rw [chain_updateScope id parents]
    -- a reference that is listed where it is made still is
    have kept : ∀ {own}, tree.scope? reference.scope = some own → reference ∈ own.references →
        ∃ own, (tree.updateScope id change).scope? reference.scope = some own ∧ reference ∈ own.references := by
      intro own ownEntry listed
      obtain ⟨later,found,_,_,same⟩ := new ownEntry
      exact ⟨later,found,same ▸ mem_append_left _ listed⟩
    rw [references] at member
    rcases mem_append.1 member with earlier | gained
    · obtain ⟨inside,own, ownEntry,listed⟩ := sound.made entry earlier
      exact ⟨inside,kept ownEntry listed⟩
    by_cases here : id = s
    · rw [if_pos here] at gained
      obtain ⟨inside,own | ⟨own, ownEntry,listed⟩⟩ := within reference gained
      · refine ⟨here ▸ inside,scope,own.trans here ▸ found,?_⟩
        rw [references,if_pos here]
        exact mem_append_right _ gained
      · exact ⟨here ▸ inside,kept ownEntry listed⟩
    · simp [here] at gained
  · intro s scope parent outer found closed up around
    rw [chain_updateScope id parents] at closed
    obtain ⟨before, entry,_,same,_,references⟩ := old found
    obtain ⟨outerBefore, outerEntry,_,_,_,outerReferences⟩ := old around
    have unchanged : scope.references = before.references := by
      rw [references]
      rcases opened with rfl | opened
      · simp
      · have apart : id ≠ s := fun here => closed (here ▸ opened)
        simp [apart]
    rw [unchanged,outerReferences]
    by_cases opened : s ∈ tree.chain current
    · obtain ⟨parentEq,all⟩ := closing entry opened closed
      have here : id = parent := Option.some.inj (parentEq.symm.trans (same.symm.trans up))
      rw [all,if_pos here]
      exact subset_append_right _ _
    · exact Subset.trans (sound.passed entry opened (same.symm.trans up) outerEntry) (subset_append_left _ _)
  · intro s scope name i found member
    obtain ⟨before, entry,rfl,_⟩ := old found
    by_cases here : id = s
    · rw [if_pos here] at member
      rcases exports before name i member with earlier | ⟨closure, closureEntry,parent,bound⟩
      · exact sound.exported entry earlier
      · exact ⟨closure, closureEntry,parent.trans here,bound⟩
    · rw [if_neg here] at member
      exact sound.exported entry member
  · intro i j outer inner outerEntry innerEntry kind around
    exact sound.ordered outerEntry innerEntry kind (chain_updateScope id parents _ ▸ around)
  · intro nest i closure found
    exact sound.placed nest found
  · intro nest s scope reference name found member mention
    obtain ⟨before, entry,_,_,_,references⟩ := old found
    rw [references] at member
    rcases mem_append.1 member with earlier | gained
    · exact sound.visible nest entry earlier mention
    · by_cases here : id = s
      · rw [if_pos here] at gained
        exact shown nest reference gained name mention
      · simp [here] at gained

variable (sound : tree.Sound nests current)
include sound

lemma update (id : ScopeIndex) {change : Scope → Scope}
    (keeps : ∀ scope, (change scope).parent = scope.parent ∧ (change scope).closure = scope.closure)
    (exports : ∀ scope name i, (name, i) ∈ (change scope).exports → (name, i) ∈ scope.exports ∨
      ∃ closure, tree.closure? i = some closure ∧ closure.parent = id ∧ closure.boundName = name)
    (same : ∀ scope, (change scope).references = scope.references) :
    (tree.updateScope id change).Sound nests current :=
  sound.change id current [] keeps (by simpa using same) exports sound.inside (.inl rfl) (by simp)
    (fun _ opened closed => absurd opened closed) (by simp)

lemma declare (id : ScopeIndex) (name : String) : (tree.declare id name).Sound nests current := by
  refine sound.update id (fun scope => ?_) (fun scope other i member => ?_) (fun scope => ?_)
  · split <;> exact ⟨rfl,rfl⟩
  · split at member <;> exact .inl member
  · split <;> rfl

lemma addImport (name : String) : (tree.addImport name).Sound nests current :=
  sound.update root (fun _ => ⟨rfl,rfl⟩) (fun _ _ _ => .inl) (fun _ => rfl)

lemma addExport (found : tree.closure? i = some closure) :
    (tree.addExport closure.parent closure.boundName i).Sound nests current := by
  refine sound.update closure.parent (fun _ => ⟨rfl,rfl⟩) (fun scope name j member => ?_) (fun _ => rfl)
  rcases Keyed.mem_insert member with equal | earlier
  · cases equal
    exact .inr ⟨closure,found,rfl,rfl⟩
  · exact .inl earlier

lemma addReference (reference : Reference) (here : reference.scope = current)
    (visible : nests → ∀ name, reference.mention = .identifier name → reference.span.holdsText = true) :
    (tree.addReference reference).Sound nests current := by
  obtain ⟨scope,found⟩ := scope?_of_lt sound.inside
  have self := self_mem_chain sound.parented found
  refine sound.change reference.scope current [reference] (fun _ => ⟨rfl,rfl⟩) (fun _ => rfl)
    (fun _ _ _ => .inl) sound.inside (.inr (here ▸ self)) ?_
    (fun _ opened closed => absurd opened closed) ?_
  · simpa [here] using self
  · simpa using visible

lemma passUp (found : tree.scope? current = some scope) (up : scope.parent = some parent) :
    (tree.passUp current).Sound nests parent := by
  have valid := (sound.parented found up).trans sound.inside
  obtain ⟨outer,around⟩ := scope?_of_lt valid
  have self := self_mem_chain sound.parented around
  have chainEq := chain_of_parent sound.parented found up
  simp only [Scoping.passUp,found,up]
  refine sound.change parent parent scope.references (fun _ => ⟨rfl,rfl⟩) (fun _ => rfl)
    (fun _ _ _ => .inl) valid (.inr self) ?_ ?_ ?_
  · intro reference member
    obtain ⟨inside,own⟩ := sound.made found member
    exact ⟨parent_mem_chain sound.parented inside found up around,.inr own⟩
  · intro s entry foundEntry opened closed
    rw [chainEq] at opened
    have here : s = current := (mem_cons.1 opened).resolve_right closed
    subst here
    cases foundEntry.symm.trans found
    exact ⟨up,rfl⟩
  · intro nest reference member name mention
    exact sound.visible nest found member mention

lemma openScope (kind : ScopeRole) (owner : Span) :
    (tree.openScope kind current owner).2.Sound nests tree.scopes.length := by
  obtain ⟨opened,entered,up,-⟩ := scope?_openScope_new tree kind current owner
  have later := openScope_extends tree kind current owner
  have length : (tree.openScope kind current owner).2.scopes.length = tree.scopes.length + 1 := by
    simp [Scoping.openScope]
  have parented := sound.parented.openScope sound.inside kind owner
  have references : ∀ {s before}, tree.scope? s = some before →
      ∃ scope, (tree.openScope kind current owner).2.scope? s = some scope ∧ scope.references = before.references := by
    intro s before entry
    obtain ⟨scope,found,_⟩ := later entry
    rcases scope?_openScope_cases found with ⟨rfl,_⟩ | ⟨other,_,entry',rfl⟩
    · exact absurd (lt_of_scope? entry) (Nat.lt_irrefl _)
    · cases entry.symm.trans entry'
      exact ⟨_,found,rfl⟩
  constructor
  · exact parented
  · rw [length]
    exact Nat.lt_add_one _
  · intro i closure found
    obtain ⟨before, entry,mark,parent⟩ := sound.owned found
    obtain ⟨scope,found,same,closure⟩ := later entry
    exact ⟨scope,found,closure.trans mark,same.parent.trans parent⟩
  · intro s scope i found mark
    rcases scope?_openScope_cases found with ⟨_,rfl⟩ | ⟨before,_, entry,rfl⟩
    · cases mark
    · exact sound.owns entry mark
  · intro s scope reference found member
    rcases scope?_openScope_cases found with ⟨_,rfl⟩ | ⟨before,_, entry,rfl⟩
    · cases member
    · obtain ⟨within,own, ownEntry,listed⟩ := sound.made entry member
      obtain ⟨ownLater,ownFound,ownSame⟩ := references ownEntry
      rw [later.grows.chain_eq sound.parented parented (lt_of_scope? ownEntry)]
      exact ⟨within,ownLater,ownFound,ownSame ▸ listed⟩
  · intro s scope parent outer found closed parentEq around
    rw [chain_of_parent parented entered up, later.grows.chain_eq sound.parented parented sound.inside] at closed
    rcases scope?_openScope_cases found with ⟨rfl,rfl⟩ | ⟨before,_, entry,rfl⟩
    · simp at closed
    obtain ⟨outerBefore, outerEntry⟩ := scope?_of_lt ((sound.parented entry parentEq).trans (lt_of_scope? entry))
    obtain ⟨outerLater,outerFound,outerSame⟩ := references outerEntry
    cases around.symm.trans outerFound
    rw [outerSame]
    exact (sound.passed entry (fun h => closed (mem_cons_of_mem _ h)) parentEq outerEntry :)
  · intro s scope name i found member
    rcases scope?_openScope_cases found with ⟨_,rfl⟩ | ⟨before,_, entry,rfl⟩
    · cases member
    · exact sound.exported entry member
  · intro i j outer inner outerEntry innerEntry kind around
    rw [later.grows.chain_eq sound.parented parented (sound.parent_lt innerEntry)] at around
    exact sound.ordered outerEntry innerEntry kind around
  · intro nest i closure found
    exact sound.placed nest found
  · intro nest s scope reference name found member
    rcases scope?_openScope_cases found with ⟨_,rfl⟩ | ⟨before,_, entry,rfl⟩
    · cases member
    · exact sound.visible nest entry member

lemma insertClosure (found : tree.scope? current = some scope) (unmarked : scope.closure = none)
    (up : scope.parent = some closure.parent) (own : closure.scope = current)
    (latest : closure.kind ≠ .classLiteral → tree.scopes.length = current + 1)
    (placed : nests → closure.context.admits closure.span = true ∧ closure.span.holdsText = true) :
    (tree.insertClosure closure).2.Sound nests current := by
  have keeps : ∀ entry : Scope,
      { entry with closure := some tree.closures.length }.parent = entry.parent := fun _ => rfl
  have entries : ∀ s, (tree.insertClosure closure).2.scope? s = (tree.scope? s).map fun entry =>
      if current = s then { entry with closure := some tree.closures.length } else entry :=
    own ▸ scope?_insertClosure closure
  have closures : (tree.insertClosure closure).2.closures = tree.closures ++ [closure] := rfl
  have added : (tree.insertClosure closure).2.closure? tree.closures.length = some closure := by
    simp [Scoping.closure?,closures]
  have kept : ∀ {i other}, tree.closure? i = some other → (tree.insertClosure closure).2.closure? i = some other := by
    intro i other entry
    rw [Scoping.closure?,closures, getElem?_append_left (List.getElem?_eq_some_iff.1 entry).1]
    exact entry
  have either : ∀ {i other}, (tree.insertClosure closure).2.closure? i = some other →
      (i = tree.closures.length ∧ other = closure) ∨ tree.closure? i = some other := by
    intro i other entry
    rw [Scoping.closure?,closures] at entry
    exact (getElem?_concat_cases entry).symm
  constructor
  · exact sound.parented.updateScope closure.scope keeps
  · simpa [Scoping.insertClosure,updateScope] using sound.inside
  · intro i other entry
    rcases either entry with ⟨rfl,rfl⟩ | entry
    · exact ⟨_,by rw [entries,own,found]; rfl,by simp,by simp [up]⟩
    obtain ⟨before, beforeEntry,mark,parent⟩ := sound.owned entry
    have apart : current ≠ other.scope := by
      rintro rfl
      cases beforeEntry.symm.trans found
      simp [unmarked] at mark
    exact ⟨before,by rw [entries, beforeEntry]; simp [apart],mark,parent⟩
  · intro s later i entry mark
    rw [entries] at entry
    obtain ⟨before, beforeEntry,rfl⟩ := Option.map_eq_some_iff.1 entry
    split at mark
    · rename_i here
      cases mark
      exact ⟨closure,added,own.trans here⟩
    · obtain ⟨other, otherEntry,same⟩ := sound.owns beforeEntry mark
      exact ⟨other,kept otherEntry,same⟩
  · intro s later reference entry member
    rw [entries] at entry
    obtain ⟨before, beforeEntry,rfl⟩ := Option.map_eq_some_iff.1 entry
    have listed : reference ∈ before.references := by
      split at member <;> exact member
    obtain ⟨within,ownScope, ownEntry,ownListed⟩ := sound.made beforeEntry listed
    rw [chain_insertClosure]
    refine ⟨within,_,by rw [entries, ownEntry]; rfl,?_⟩
    split <;> exact ownListed
  · intro s later parent outer entry closed parentEq around
    rw [chain_insertClosure] at closed
    rw [entries] at entry around
    obtain ⟨before, beforeEntry,rfl⟩ := Option.map_eq_some_iff.1 entry
    obtain ⟨outerBefore, outerEntry,rfl⟩ := Option.map_eq_some_iff.1 around
    have same : before.parent = some parent := by
      split at parentEq <;> exact parentEq
    have subset := sound.passed beforeEntry closed same outerEntry
    split <;> split <;> exact subset
  · intro s later name i entry member
    rw [entries] at entry
    obtain ⟨before, beforeEntry,rfl⟩ := Option.map_eq_some_iff.1 entry
    have listed : (name, i) ∈ before.exports := by
      split at member <;> exact member
    obtain ⟨other, otherEntry,facts⟩ := sound.exported beforeEntry listed
    exact ⟨other,kept otherEntry,facts⟩
  · intro i j outer inner outerEntry innerEntry kind around
    rw [chain_insertClosure] at around
    rcases either innerEntry with ⟨rfl,rfl⟩ | innerOld
    · rcases either outerEntry with ⟨rfl,rfl⟩ | outerOld
      · exact absurd (le_of_mem_chain sound.parented around) (Nat.not_le_of_lt (own ▸ sound.parented found up))
      · exact (List.getElem?_eq_some_iff.1 outerOld).1
    · rcases either outerEntry with ⟨rfl,rfl⟩ | outerOld
      · -- nothing in the scope of a function has been walked yet
        obtain ⟨innerScope,innerFound,mark,innerUp⟩ := sound.owned innerOld
        have apart : inner.scope ≠ current := by
          intro same
          cases (same ▸ innerFound).symm.trans found
          simp [unmarked] at mark
        have earlier : inner.scope < current :=
          Nat.lt_of_le_of_ne (Nat.le_of_lt_add_one (latest kind ▸ lt_of_scope? innerFound)) apart
        have reach := le_of_mem_chain sound.parented around
        rw [own] at reach
        exact absurd reach ((sound.parented innerFound innerUp).trans earlier).not_ge
      · exact sound.ordered outerOld innerOld kind around
  · intro nest i other entry
    rcases either entry with ⟨_,rfl⟩ | entry
    · exact placed nest
    · exact sound.placed nest entry
  · intro nest s later reference name entry member
    rw [entries] at entry
    obtain ⟨before, beforeEntry,rfl⟩ := Option.map_eq_some_iff.1 entry
    have listed : reference ∈ before.references := by
      split at member <;> exact member
    exact sound.visible nest beforeEntry listed

end Scoping.Sound

lemma Scoping.Sound.pop (sound : builder.tree.Sound nests builder.current)
    (opened : builder.OpenIn s parent) : builder.pop.tree.Sound nests builder.pop.current := by
  obtain ⟨entry,found,up⟩ := opened.up
  rw [opened.pop_current]
  exact sound.passUp (opened.current ▸ found) up

lemma register_sound (setting : Selecting) (candidate : Candidate) (sound : inside.tree.Sound nests inside.current)
    (walk : Walk setting nests guard (builder.push kind owner) inside)
    (first : candidate.kind ≠ .classLiteral → inside = builder.push kind owner)
    (fits : site.Fits nests candidate.span) (visible : nests → candidate.span.holdsText = true) :
    (register setting site candidate builder.current inside).2.tree.Sound nests
      (register setting site candidate builder.current inside).2.current := by
  obtain ⟨opened,found,up,unmarked,-⟩ := Scoping.scope?_openScope_new builder.tree kind builder.current owner
  obtain ⟨entered,found,same,mark⟩ := walk.frame.1 found
  have found : inside.tree.scope? inside.current = some entered := walk.frame.2 ▸ found
  have latest : candidate.kind ≠ .classLiteral → inside.tree.scopes.length = inside.current + 1 := by
    intro function
    rw [first function]
    simp [Builder.push,Scoping.openScope]
  rcases register_eq setting site candidate builder.current fits.unnamed with
    none | ⟨exportName,allocator,equal⟩
  · rw [none]
    exact sound
  · rw [equal]
    refine (sound.insertClosure found (mark.trans unmarked) (same.parent.trans up) rfl latest fun nest =>
      ⟨fits.placed nest,visible nest⟩).addExport ?_
    simp [Scoping.insertClosure,Scoping.closure?,Scoping.updateScope]

lemma Walk.sound (walk : Walk setting nests guard builder after)
    (sound : builder.tree.Sound nests builder.current) : after.tree.Sound nests after.current := by
  induction walk with
  | done => exact sound
  | andThen _ _ one two => exact two (one sound)
  | declares scope name => exact sound.declare scope name
  | records _ _ _ visible => exact sound.addReference _ rfl visible
  | imports id => exact (sound.declare _ id.name).addImport id.name
  | exports id => simpa using sound
  | list starts _ ih => exact ih sound
  | nested kind owner walk ih =>
    exact (ih (sound.openScope kind owner)).pop
      ((Builder.push_openIn _ kind owner).later walk.frame.1.grows walk.frame.2)
  | closure kind owner site candidate suits first one two ihOne ihTwo =>
    have opened := (Builder.push_openIn _ kind owner).later one.frame.1.grows one.frame.2
    have registered := register_sound setting candidate (ihOne (sound.openScope kind owner)) one first
      suits.toFits suits.visible
    exact (ihTwo registered).pop
      ((opened.later (register_grows ..) (register_current ..)).later two.frame.1.grows two.frame.2)

/-! ### The tree of a program -/

lemma Scoping.ofProgram_sound (span : Span) : (Scoping.ofProgram span).Sound nests root := by
  have only : ∀ {s scope}, (ofProgram span).scope? s = some scope →
      scope = { kind := .program, parent := none, owner := span, thisOwner := root } := by
    intro s scope found
    rw [scope?,ofProgram,List.getElem?_singleton] at found
    split at found
    · exact (Option.some.inj found).symm
    · cases found
  have none {i : ClosureIndex} {closure : Closure} : (ofProgram span).closure? i ≠ some closure := nofun
  refine ⟨fun _ _ _ found up => ?_,Nat.zero_lt_one,fun found => (none found).elim,fun found mark => ?_,
    fun found member => ?_,fun found _ up => ?_,fun found member => ?_,fun found => (none found).elim,
    fun _ _ _ found => (none found).elim,fun _ _ _ _ _ found member => ?_⟩
  all_goals cases only found
  · cases up
  · cases mark
  · cases member
  · cases up
  · cases member
  · cases member

/-- Every program gives a sound tree, with the root as the scope that is left open. -/
lemma analyze_sound (setting : Selecting) (program : Program) (nested : nests → statementsNest program.body = true) :
    (analyze setting program).tree.Sound nests Scoping.root := by
  have walk := walk_of_program setting program nested
  have current := walk.frame.2
  have sound := walk.sound (ofProgram_sound program.span)
  rw [current] at sound
  exact sound

namespace Scoping.Sound

variable {tree : Scoping} {outer : ScopeIndex} {reference : Reference}

section
variable (sound : tree.Sound nests root) (found : tree.scope? s = some scope) (member : reference ∈ scope.references)
include sound found member

lemma listed_around (around : outer ∈ tree.chain s) :
    ∃ scope, tree.scope? outer = some scope ∧ reference ∈ scope.references := by
  have held : ∃ scope, tree.scope? s = some scope ∧ reference ∈ scope.references := ⟨scope,found,member⟩
  revert held
  refine sound.parented.within around (fun _ _ held => held) ?_
  rintro s _ parent found up _ ih ⟨_,found',member⟩
  cases found.symm.trans found'
  obtain ⟨above,aboveFound⟩ := scope?_of_lt ((sound.parented found up).trans (lt_of_scope? found))
  -- the root has no parent, so this scope is closed
  have closed : s ∉ tree.chain root := by
    intro opened
    obtain ⟨top,topFound⟩ := scope?_of_lt sound.inside
    cases topUp : top.parent with
    | none =>
      rw [chain_of_orphan topFound topUp,List.mem_singleton] at opened
      cases opened
      exact Nat.not_lt_zero _ (sound.parented found up)
    | some parent => exact Nat.not_lt_zero _ (sound.parented topFound topUp)
  exact ih ⟨above,aboveFound,sound.passed found closed up aboveFound member⟩

lemma listed (around : outer ∈ tree.chain reference.scope) :
    ∃ scope, tree.scope? outer = some scope ∧ reference ∈ scope.references := by
  obtain ⟨_,own,ownFound,listed⟩ := sound.made found member
  exact sound.listed_around ownFound listed around

end
end Scoping.Sound

end Resumable
