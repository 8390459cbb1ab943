import Resumable.Proofs.EditOrder
import Resumable.Proofs.Factories

/-! Every factory can be called where its closure stands: a name that a closure captures means the same around the
literal as it does inside. What is left to go wrong in the output is a tag that has no call, and edits that overlap.
-/
namespace Resumable
open Script Closure
variable {binding : Binding}

/-- A call that can be written: the names it passes mean what the closure captured, there is one
argument for each parameter, and the text is the call of the factory with them. -/
structure Plan.Calls (plan : Plan) (id : ClosureIndex) (closure : Closure) : Prop where
  resolves : ∀ binding ∈ closure.bindings, ∀ name, binding.arg = .identifier name →
    (plan.tree.resolve closure.parent name).map Resolution.scope = some binding.declaredIn
  written : ∃ args, closure.bindings.mapM (plan.argument id closure) = .ok args ∧
    closure.bindings.length = closure.params.length ∧ closure.params.length = args.length ∧
    plan.call id = .ok (closure.exportName ++ "(" ++ String.intercalate ", " args ++ ")")

namespace Scoping

variable {tree : Scoping} {nests : Prop}

lemma Bound.resolve_parent (sound : tree.Sound nests root) {id : ClosureIndex} {closure : Closure}
    (found : tree.closure? id = some closure) (bound : tree.Bound id closure)
    (member : binding ∈ closure.bindings) {name : String} (arg : binding.arg = .identifier name) :
    (tree.resolve closure.parent name).map Resolution.scope = some binding.declaredIn := by
  obtain ⟨reference,listed,asks⟩ := bound.asked binding member
  obtain ⟨scope, entry,made⟩ := mem_referencesIn.1 listed
  obtain ⟨within,_⟩ := sound.made entry made
  obtain ⟨own, ownEntry,_,up⟩ := sound.owned found
  cases origin_of_demand asks with
  | declared _ resolves _ _ outside =>
    cases arg
    rw [Scoping.resolve_parent resolves sound.parented within ownEntry up outside,Option.map_some]
  | closure | this | arguments => cases arg

end Scoping

namespace Plan

variable {plan : Plan} {id : ClosureIndex} {closure : Closure}

lemma argument_ok (id : ClosureIndex) (resolves : ∀ name, binding.arg = .identifier name →
      (plan.tree.resolve closure.parent name).map Resolution.scope = some binding.declaredIn) :
    ∃ text, plan.argument id closure binding = .ok text := by
  unfold argument
  split
  · rename_i name arg
    exact ⟨name,by simp [resolves name arg]⟩
  all_goals exact ⟨_,rfl⟩

lemma calls_of_bound (sound : plan.tree.Sound nests Scoping.root)
    (found : plan.tree.closure? id = some closure) (bound : plan.tree.Bound id closure) :
    plan.Calls id closure := by
  have resolves : ∀ binding ∈ closure.bindings, ∀ name, binding.arg = .identifier name →
      (plan.tree.resolve closure.parent name).map Resolution.scope = some binding.declaredIn :=
    fun _ member _ arg => bound.resolve_parent sound found member arg
  let text (binding : Binding) := (plan.argument id closure binding).toOption.getD ""
  have spelled : closure.bindings.mapM (plan.argument id closure) = .ok (closure.bindings.map text) := by
    refine mapM_of_ok fun binding member => ?_
    obtain ⟨arg,ok⟩ := argument_ok id (resolves binding member)
    simp [text,ok,Except.toOption]
  have arity : closure.checkArity closure.params (closure.bindings.map text) plan.file = .ok () := by
    simp [checkArity,params]
  refine ⟨resolves,_,spelled,by simp [params],by simp [params],?_⟩
  simp [call,found,callOf,spelled,arity]

lemma Calls.callOf_ok (calls : plan.Calls id closure) (found : plan.tree.closure? id = some closure) :
    ∃ text, plan.callOf id closure = .ok text := by
  obtain ⟨args,-,-,-,written⟩ := calls.written
  exact ⟨_,by simpa [call,found] using written⟩

end Plan

/-! ### What can go wrong -/

def FailsOnlyWith {α : Type} (reasons : List Invariant) (result : Except Diagnostic α) : Prop :=
  ∀ fault, result = .error fault → fault.invariant ∈ reasons

namespace FailsOnlyWith

variable {α β : Type} {reasons : List Invariant} {result : Except Diagnostic α}

lemma ok (value : α) : FailsOnlyWith reasons (.ok value) := nofun

lemma of_exists (there : ∃ value, result = .ok value) : FailsOnlyWith reasons result := by
  obtain ⟨value,rfl⟩ := there
  exact ok value

lemma mono (only : FailsOnlyWith reasons result) (fewer : reasons ⊆ more) : FailsOnlyWith more result :=
  fun fault failed => fewer (only fault failed)

lemma bind (only : FailsOnlyWith reasons first)
    (rest : ∀ value, first = .ok value → FailsOnlyWith reasons (next value)) :
    FailsOnlyWith reasons (first >>= next) := by
  intro fault failed
  cases first with
  | error other =>
    cases failed
    exact only fault rfl
  | ok value => exact rest value rfl fault failed

lemma map (only : FailsOnlyWith reasons result) (f : α → β) : FailsOnlyWith reasons (result.map f) := by
  intro fault failed
  cases result with
  | error other =>
    cases failed
    exact only fault rfl
  | ok value => cases failed

lemma mapM {values : List α} {f : α → Except Diagnostic β} (only : ∀ value ∈ values, FailsOnlyWith reasons (f value)) :
    FailsOnlyWith reasons (values.mapM f) := by
  induction values with
  | nil => exact ok []
  | cons value rest ih =>
    rw [List.mapM_cons]
    refine bind (only value List.mem_cons_self) fun first _ => ?_
    exact bind (ih fun other member => only other (List.mem_cons_of_mem _ member)) fun _ _ => ok _

end FailsOnlyWith

namespace Plan

variable {plan : Plan}

lemma useEdit_fails (calls : ∀ {id closure}, plan.tree.closure? id = some closure → plan.Calls id closure)
    (reference : Reference) : FailsOnlyWith [.cyclicClosures] (plan.useEdit reference) := by
  unfold useEdit
  split
  · exact .ok _
  · exact .ok _
  rename_i name mention
  unfold variableEdit
  split
  · exact .ok _
  rename_i id lifted
  split
  · exact .ok _
  rename_i closure found
  refine .bind ?_ fun value _ => ?_
  · simp only [replacement?]
    split
    · split
      · split
        · exact .map (.of_exists ((calls found).callOf_ok found)) some
        · exact .ok _
      · exact .ok _
    · split <;> exact .ok _
  · split
    · exact .ok _
    split
    · exact .ok _
    · exact .ok _
    · exact .ok _
    · exact .ok _
    · rintro fault ⟨rfl⟩
      simp [lazyTag]

lemma siteEdits_fails {id : ClosureIndex} {closure : Closure}
    (there : ∃ text, plan.callOf id closure = .ok text) (reasons : List Invariant) :
    FailsOnlyWith reasons (plan.siteEdits id closure) := by
  have called : FailsOnlyWith reasons (plan.callOf id closure) := .of_exists there
  unfold siteEdits
  split
  · unfold declarationEdits
    split
    · refine .bind called fun text _ => ?_
      dsimp only
      split <;> exact .ok _
    · exact .ok _
  · exact .bind called fun _ _ => .ok _
  · exact .bind called fun _ _ => .ok _
  · exact .bind called fun _ _ => .ok _
  · exact .ok _

lemma edits_fails (calls : ∀ {id closure}, plan.tree.closure? id = some closure → plan.Calls id closure)
    (source : List Char) (exportedNames : List String) :
    FailsOnlyWith [.cyclicClosures] (plan.edits source exportedNames) := by
  refine .bind ?references fun _ _ => .bind ?closures fun _ _ => .ok _
  case references =>
    refine .bind (.mapM fun reference _ => ?_) fun _ _ => .ok _
    exact .bind (useEdit_fails calls reference) fun _ _ => .ok _
  case closures =>
    refine .bind (.mapM ?_) fun _ _ => .ok _
    rintro ⟨closure,id⟩ member
    have found : plan.tree.closure? id = some closure := List.mk_mem_zipIdx_iff_getElem?.mp member
    dsimp only
    split
    · exact .bind (siteEdits_fails ((calls found).callOf_ok found) _) fun _ _ => .ok _
    · exact .ok _

end Plan

lemma checkRegions_fails (file : String) (tree : Scoping) (edits : List RegionEdit) :
    FailsOnlyWith [.overlappingEdits] (checkRegions file tree edits) := by
  refine .mapM fun region _ => .bind ?_ fun _ _ => .ok _
  simp only [Edit.check]
  split
  · rintro fault ⟨rfl⟩
    simp [Edit.clashDiagnostic]
  · exact .ok _

def Analysis.bound (analysis : Analysis) : Analysis := { analysis with tree := analysis.tree.bindAll }

/-- For every program, the factory of each of its closures can be called where the closure stands, and
the output fails for no other reason than a tag without a call or edits that overlap: never for a
captured name that is not found at the call, or a number of arguments that does not fit. -/
theorem factories_can_be_called (setting : Selecting) (program : Program) :
    (∀ file id closure, (analyze setting program).bound.tree.closure? id = some closure →
      ((analyze setting program).bound.tree.plan file).Calls id closure) ∧
    ∀ source options, FailsOnlyWith [.cyclicClosures, .overlappingEdits]
      ((analyze setting program).bound.output source options) := by
  have calls : ∀ file id closure, (analyze setting program).bound.tree.closure? id = some closure →
      ((analyze setting program).bound.tree.plan file).Calls id closure := fun file id closure found =>
    Plan.calls_of_bound (analyze_bindAll_sound setting program) found (Scoping.bound_bindAll found)
  refine ⟨calls, fun source options => ?_⟩
  refine .bind ((Plan.edits_fails (calls _ _ _) _ _).mono (by simp)) fun edits _ => ?_
  exact .bind ((checkRegions_fails _ _ _).mono (by simp)) fun _ _ => .ok _

theorem nestedLiterals_called :
    ∃ closure, (analyze everything nestedLiterals).bound.tree.closure? 2 = some closure ∧
      closure.params = ["x", "this_27", "arguments_27"] ∧
      ((analyze everything nestedLiterals).bound.tree.plan "a.js").Calls 2 closure := by
  have arrow : ((analyze everything nestedLiterals).bound.tree.closure? 2).map Closure.params =
      some ["x", "this_27", "arguments_27"] := by decide +kernel
  obtain ⟨closure, found, params⟩ := Option.map_eq_some_iff.mp arrow
  exact ⟨closure, found, params,
    (factories_can_be_called everything nestedLiterals).1 "a.js" 2 closure found⟩

end Resumable
