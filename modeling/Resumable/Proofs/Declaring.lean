import Resumable.Proofs.Outline
import Resumable.Proofs.Soundness

/-! The names that a scope knows. Nothing that a walk does makes a scope forget a name, and a walk
over statements leaves the names that they declare where they belong. -/
namespace Resumable
open Script Scoping
variable {site : Site} {change : Scope → Scope} {guard : Guard}

namespace Scoping

variable {tree : Scoping} {s : ScopeIndex} {name : String}

def Knows (tree : Scoping) (s : ScopeIndex) (name : String) : Prop :=
  ∃ scope, tree.scope? s = some scope ∧ scope.knows name

lemma knows_iff_resolveIn : tree.Knows s name ↔ (tree.resolveIn name s).isSome := by
  unfold Knows resolveIn Scope.knows
  cases tree.scope? s with
  | none => simp
  | some scope => by_cases declared : name ∈ scope.declarations <;> simp [declared]

lemma Knows.mono (known : tree.Knows s name) (grows : tree.Grows other) : other.Knows s name := by
  obtain ⟨scope,found,knows⟩ := known
  obtain ⟨last, entry,same⟩ := grows found
  exact ⟨last, entry,same.knows knows⟩

lemma knows_declare (inside : s < tree.scopes.length) : (tree.declare s name).Knows s name := by
  obtain ⟨scope,found⟩ := scope?_of_lt inside
  refine ⟨_,by rw [declare,scope?_updateScope,found]; rfl,?_⟩
  simp only [if_true,Scope.knows,Bool.or_eq_true,List.contains_iff_mem]
  split
  · exact .inl ‹_›
  · simp

lemma Knows.passUp (known : tree.Knows s name) (id : ScopeIndex) : (tree.passUp id).Knows s name :=
  known.mono (passUp_extends id).grows

lemma knows_addExport (inside : s < tree.scopes.length) (closure : ClosureIndex) :
    (tree.addExport s name closure).Knows s name := by
  obtain ⟨scope,found⟩ := scope?_of_lt inside
  refine ⟨_,by rw [addExport,scope?_updateScope,found]; rfl,?_⟩
  simp [Scope.knows,Keyed.get?_insert]

end Scoping

/-! ### Nothing is forgotten -/

variable {setting : Selecting} {nests : Prop} {builder after : Builder} {s : ScopeIndex} {name : String}

lemma Walk.knows (walk : Walk setting nests guard builder after) (known : builder.tree.Knows s name) :
    after.tree.Knows s name :=
  known.mono walk.frame.1.grows

/-! ### The function around a scope -/

namespace Scoping
open List
variable {tree before after : Scoping}

lemma Grows.kindOf (later : Grows before after) (inside : s < before.scopes.length) :
    after.kindOf s = before.kindOf s := by
  obtain ⟨scope,found⟩ := scope?_of_lt inside
  obtain ⟨last, entry,same⟩ := later found
  simp [Scoping.kindOf,found, entry,same.kind]

lemma dropWhile_congr {α : Type} {p q : α → Bool} {values : List α}
    (same : ∀ value ∈ values, p value = q value) : values.dropWhile p = values.dropWhile q := by
  induction values with
  | nil => rfl
  | cons value rest ih =>
    rw [dropWhile_cons,dropWhile_cons,same value mem_cons_self, ih fun other mem => same other (mem_cons_of_mem _ mem)]

@[simp] lemma length_updateScope (id : ScopeIndex) (change : Scope → Scope) :
    (tree.updateScope id change).scopes.length = tree.scopes.length :=
  length_modify ..

lemma length_passUp (id : ScopeIndex) : (tree.passUp id).scopes.length = tree.scopes.length := by
  unfold passUp
  split
  · split
    · exact length_updateScope ..
    · rfl
  · rfl

lemma Grows.functionScope_eq (later : Grows before after) (parented : before.Parented)
    (parented' : after.Parented) (inside : s < before.scopes.length) :
    after.functionScope s = before.functionScope s := by
  unfold functionScope
  rw [later.chain_eq parented parented' inside]
  rw [dropWhile_congr fun id mem => ?_]
  obtain ⟨scope,found⟩ := scope?_of_mem_chain parented mem
  exact congrArg (· == ScopeRole.loop) (later.kindOf (lt_of_scope? found))

lemma functionScope_lt (parented : tree.Parented) (inside : s < tree.scopes.length) :
    tree.functionScope s < tree.scopes.length := by
  unfold functionScope
  cases around : ((tree.chain s).dropWhile fun id => tree.kindOf id == .loop).head? with
  | none => exact Nat.zero_lt_of_lt inside
  | some id =>
    have mem : id ∈ tree.chain s := (dropWhile_sublist _).subset (mem_of_mem_head? around)
    obtain ⟨scope,found⟩ := scope?_of_mem_chain parented mem
    exact lt_of_scope? found

end Scoping

lemma Walk.functionScope (walk : Walk setting nests guard builder after)
    (sound : builder.tree.Sound nests builder.current) :
    after.tree.functionScope after.current = builder.tree.functionScope builder.current := by
  rw [walk.frame.2]
  exact walk.frame.1.grows.functionScope_eq sound.parented (walk.sound sound).parented sound.inside

lemma functionScope_push (sound : builder.tree.Sound nests builder.current) (owner : Span) :
    (builder.push .loop owner).tree.functionScope (builder.push .loop owner).current =
      builder.tree.functionScope builder.current := by
  obtain ⟨opened,found,up,-⟩ := scope?_openScope_new builder.tree .loop builder.current owner
  have isLoop : (builder.push .loop owner).tree.kindOf builder.tree.scopes.length = .loop := by
    simp [Builder.push,openScope,kindOf,scope?]
  have outer := (Builder.push_extends builder .loop owner).grows.functionScope_eq sound.parented
    (sound.openScope .loop owner).parented sound.inside
  have around : (builder.push .loop owner).tree.chain builder.tree.scopes.length =
      builder.tree.scopes.length :: (builder.push .loop owner).tree.chain builder.current :=
    chain_of_parent (sound.openScope .loop owner).parented found up
  rw [← outer,functionScope,functionScope,Builder.push_current,around, List.dropWhile_cons,isLoop]
  rfl

/-! ### What is declared is known -/

lemma Scoping.Knows.declareAll (known : builder.tree.Knows s name) (scope : ScopeIndex)
    (ids : List Ident) : (builder.declareAll scope ids).tree.Knows s name := by
  induction ids generalizing builder with
  | nil => exact known
  | cons id rest ih => exact ih (known.mono (declare_extends ..).grows)

lemma knows_declareAll (inside : s < builder.tree.scopes.length) (listed : name ∈ ids.map Ident.name) :
    (builder.declareAll s ids).tree.Knows s name := by
  induction ids generalizing builder with
  | nil => simp at listed
  | cons id rest ih =>
    rcases List.mem_cons.1 listed with rfl | later
    · have known : (builder.declareIn s id.name).tree.Knows s id.name := knows_declare inside
      exact known.declareAll s rest
    · refine ih ?_ later
      simpa [Builder.declareIn,declare,updateScope] using inside

variable {id : Option Ident} {parent : ScopeIndex}

lemma knows_declareOwn (inside : s < builder.tree.scopes.length)
    (listed : name ∈ id.toList.map Ident.name) : (builder.declareOwn s id).tree.Knows s name := by
  cases id with
  | none => simp at listed
  | some id =>
    obtain rfl := List.mem_singleton.1 listed
    exact knows_declare inside

lemma knows_of_registered (inside : parent < builder.tree.scopes.length)
    (introduces : site.context.introducesItself = true) (own : candidate.ownName = some name)
    (registered : (register setting site candidate parent builder).1 = true) :
    (register setting site candidate parent builder).2.tree.Knows parent name := by
  unfold register at registered ⊢
  dsimp only at registered ⊢
  split at registered
  · cases registered
  rename_i selected
  rw [if_neg selected]
  simp only [introduces,if_true,own,Option.getD_some]
  refine knows_addExport ?_ _
  simpa [insertClosure,updateScope] using inside

lemma length_register (site : Site) (candidate : Candidate) (parent : ScopeIndex) :
    (register setting site candidate parent builder).2.tree.scopes.length = builder.tree.scopes.length := by
  simp only [register]
  split
  · rfl
  · simp [insertClosure,addExport,updateScope]

lemma knows_declareFunctionName (inside : parent < builder.tree.scopes.length)
    (introduces : site.context.introducesItself = true) (own : name ∈ head.name.toList.map Ident.name)
    (known : registered = true → builder.tree.Knows parent name) :
    (declareFunctionName site registered parent head builder).tree.Knows parent name := by
  rw [declareFunctionName,if_pos introduces]
  split
  · exact known ‹_›
  · exact knows_declareOwn inside own

lemma Scoping.Sound.lt_push (sound : builder.tree.Sound nests builder.current) (kind : ScopeRole)
    (owner : Span) : builder.current < (builder.push kind owner).tree.scopes.length := by
  simp only [Builder.push,Scoping.openScope,List.length_append,List.length_modify]
  exact Nat.lt_add_right _ sound.inside

section
variable (sound : builder.tree.Sound False builder.current) (introduces : site.context.introducesItself = true)
include sound introduces

lemma walkFunction_knows (own : name ∈ literal.head.name.toList.map Ident.name) :
    (walkFunction setting site literal builder).tree.Knows builder.current name := by
  obtain ⟨head,params,body⟩ := literal
  change name ∈ head.name.toList.map Ident.name at own
  have low := sound.lt_push site.role head.span
  simp only [walkFunction]
  split
  · exact knows_declareOwn sound.inside own
  -- the name is known before the parameters are walked
  refine Scoping.Knows.passUp ?_ _
  refine (walkStmts_free setting .nested body).knows ?_
  refine (walkPatterns_moves setting params .free).knows ?_
  refine Scoping.Knows.declareAll ?_ ..
  split
  · refine knows_declareFunctionName ?_ introduces own fun registered => ?_
    · rwa [length_register]
    · obtain ⟨id,is,rfl⟩ := List.mem_map.1 own
      refine knows_of_registered low introduces ?_ registered
      rw [functionCandidate,declaredName,Option.mem_toList.1 is]
      rfl
  · exact knows_declareFunctionName low introduces own nofun

lemma walkClass_knows (own : name ∈ literal.head.name.toList.map Ident.name) :
    (walkClass setting site literal builder).tree.Knows builder.current name := by
  obtain ⟨head,decorators,base,members⟩ := literal
  change name ∈ head.name.toList.map Ident.name at own
  have first : Walk setting False .free (builder.push .classBody head.span) _ :=
    (walkExprs_moves setting decorators .free).andThen (walkExprs_moves setting base .free)
  have low := (sound.lt_push .classBody head.span).trans_le first.frame.1.grows.length_le
  simp only [walkClass]
  split
  · exact knows_declareOwn sound.inside own
  refine Knows.passUp ?_ _
  refine (walkMembers_moves setting members .free).knows ?_
  refine (Walk.declareOwn _ fun _ _ => trivial : Walk setting False .free _ _).knows ?_
  split
  · exact knows_declareOwn (by rwa [length_register]) own
  rename_i registered
  obtain ⟨id,is,rfl⟩ := List.mem_map.1 own
  refine knows_of_registered low introduces ?_ (by simpa [introduces] using registered)
  rw [classCandidate,declaredName,Option.mem_toList.1 is]
  rfl

end

lemma Scoping.Knows.addImports (known : builder.tree.Knows s name) (locals : List Ident) :
    (locals.foldl Builder.addImport builder).tree.Knows s name := by
  induction locals generalizing builder with
  | nil => exact known
  | cons id rest ih => exact ih (known.mono (Builder.addImport_extends id).grows)

lemma knows_addImports (inside : root < builder.tree.scopes.length) {locals : List Ident}
    (listed : name ∈ locals.map Ident.name) :
    (locals.foldl Builder.addImport builder).tree.Knows root name := by
  induction locals generalizing builder with
  | nil => simp at listed
  | cons id rest ih =>
    rcases List.mem_cons.1 listed with rfl | later
    · have known : (builder.addImport id).tree.Knows root id.name :=
        (knows_declare inside).mono (addImport_extends _).grows
      exact known.addImports rest
    · exact ih (inside.trans_le (Builder.addImport_extends id).grows.length_le) later

lemma introduces_of_ownName (statement : Span) (listed : name ∈ ownName level id) :
    (declarationSite level statement).context.introducesItself = true ∧ name ∈ id.toList.map Ident.name := by
  cases level with
  | loose => cases listed
  | top | exported | nested => exact ⟨rfl,listed⟩

lemma walkStmt_knows (level : Level) (statement : Stmt) (sound : builder.tree.Sound False builder.current)
    (top : level = .top → builder.current = root) (listed : name ∈ statement.lexicalNames level) :
    (walkStmt setting level statement builder).tree.Knows builder.current name := by
  cases statement with
  | variableDecl kind slots span =>
    simp only [Stmt.lexicalNames] at listed
    split at listed
    · simp at listed
    · rename_i lexical
      simp only [walkStmt,if_neg lexical]
      exact (walkSlots_moves setting slots .free).knows (knows_declareAll sound.inside listed)
  | function literal =>
    obtain ⟨introduces,own⟩ := introduces_of_ownName literal.head.span listed
    exact walkFunction_knows sound introduces own
  | classDecl literal =>
    obtain ⟨introduces,own⟩ := introduces_of_ownName literal.head.span listed
    exact walkClass_knows sound introduces own
  | imports locals span =>
    simp only [Stmt.lexicalNames] at listed
    split at listed
    · rename_i isTop
      have atRoot := top (by simpa using isTop)
      rw [atRoot]
      exact knows_addImports (atRoot ▸ sound.inside) listed
    · simp at listed
  | enumeration id initials span =>
    simp only [Stmt.lexicalNames,ownName] at listed
    split at listed
    · simp at listed
    · rename_i tight
      simp only [walkStmt,if_neg tight]
      obtain rfl := List.mem_singleton.1 listed
      exact knows_declare sound.inside
  | exportDeclaration declaration span => exact walkStmt_knows _ declaration sound (by split <;> nofun) listed
  | exportDefault value span =>
    cases value with
    | function literal => exact walkFunction_knows sound rfl listed
    | classDecl literal => exact walkClass_knows sound rfl listed
    | _ => simp [Stmt.lexicalNames] at listed
  | compound parts span =>
    match parts, listed with
    | [body], listed => exact walkStmt_knows .nested body sound nofun listed
    | [], listed | _ :: _ :: _, listed => simp [Stmt.lexicalNames] at listed
  | _ => simp [Stmt.lexicalNames] at listed

lemma walkStmts_knows (level : Level) (statements : List Stmt) (sound : builder.tree.Sound False builder.current)
    (top : level = .top → builder.current = root)
    (listed : name ∈ lexicalNamesOfAll level statements) :
    (walkStmts setting level statements builder).tree.Knows builder.current name := by
  induction statements generalizing builder with
  | nil => simp [lexicalNamesOfAll] at listed
  | cons statement rest ih =>
    have walk : Walk setting False .free builder _ := walkStmt_free setting level statement
    rw [lexicalNamesOfAll,List.flatMap_cons] at listed
    rcases List.mem_append.1 listed with here | later
    · exact (walkStmts_free setting level rest).knows (walkStmt_knows level statement sound top here)
    · have known := ih (walk.sound sound) (fun isTop => walk.frame.2.trans (top isTop)) later
      rwa [walk.frame.2] at known

lemma walkStmts_knowsCases (level : Level) (parts : List Stmt)
    (sound : builder.tree.Sound False builder.current) (listed : name ∈ caseNames parts) :
    (walkStmts setting level parts builder).tree.Knows builder.current name := by
  induction parts generalizing builder with
  | nil => simp [caseNames] at listed
  | cons part rest ih =>
    have walk : Walk setting False .free builder _ := walkStmt_free setting level part
    rw [caseNames,List.flatMap_cons] at listed
    rcases List.mem_append.1 listed with here | later
    · refine (walkStmts_free setting level rest).knows ?_
      cases part with
      | case test body span =>
        have tested : Walk setting False .free builder _ := walkExprs_moves setting test .free
        rw [← tested.frame.2]
        exact walkStmts_knows .nested body (tested.sound sound) nofun here
      | _ => simp at here
    · have known := ih (walk.sound sound) later
      rwa [walk.frame.2] at known

/-! ### Variables of a whole function -/

mutual

/-- `var` leaves its names in the scope of the function, however deep in blocks and loops it is. -/
lemma walkStmt_knowsVars (level : Level) (statement : Stmt) (builder : Builder)
    (sound : builder.tree.Sound False builder.current) (listed : name ∈ statement.varNames) :
    (walkStmt setting level statement builder).tree.Knows (builder.tree.functionScope builder.current) name := by
  cases statement with
  | variableDecl kind slots span =>
    simp only [Stmt.varNames] at listed
    split at listed
    · rename_i isVar
      simp only [walkStmt,if_pos isVar]
      exact (walkSlots_moves setting slots .free).knows
        (knows_declareAll (functionScope_lt sound.parented sound.inside) listed)
    · simp at listed
  | block body span =>
    exact walkStmts_knowsVars .nested body { builder with lists := starts body :: builder.lists } sound listed
  | loop parts span =>
    have known := walkStmts_knowsVars .nested parts (builder.push .loop span) (sound.openScope .loop span) listed
    rw [functionScope_push sound span] at known
    exact known.passUp _
  | compound parts span => exact walkStmts_knowsVars .nested parts builder sound listed
  | case test body span =>
    have walk : Walk setting False .free builder _ := walkExprs_moves setting test .free
    rw [← walk.functionScope sound]
    exact walkStmts_knowsVars .nested body
      { walkExprs setting test builder with lists := starts body :: _ } (walk.sound sound) listed
  | handler pattern body span =>
    have walk : Walk setting False .free builder _ :=
      (Walk.declareAll builder.current (Pattern.namesOfAll pattern) fun _ _ => trivial).andThen
        (walkPatterns_moves setting pattern .free)
    rw [← walk.functionScope sound]
    exact walkStmt_knowsVars .nested body _ (walk.sound sound) listed
  | exportDeclaration declaration span => exact walkStmt_knowsVars _ declaration builder sound listed
  | _ => simp [Stmt.varNames] at listed

lemma walkStmts_knowsVars (level : Level) (statements : List Stmt) (builder : Builder)
    (sound : builder.tree.Sound False builder.current) (listed : name ∈ varNamesOfAll statements) :
    (walkStmts setting level statements builder).tree.Knows (builder.tree.functionScope builder.current) name := by
  cases statements with
  | nil => simp [varNamesOfAll] at listed
  | cons statement rest =>
    have walk : Walk setting False .free builder _ := walkStmt_free setting level statement
    rw [varNamesOfAll] at listed
    rcases List.mem_append.1 listed with here | later
    · exact (walkStmts_free setting level rest).knows (walkStmt_knowsVars level statement builder sound here)
    · have known := walkStmts_knowsVars level rest _ (walk.sound sound) later
      rwa [walk.functionScope sound] at known

end
end Resumable
