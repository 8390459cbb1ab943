import Resumable.Payload.Reading
import Resumable.Proofs.Spelling

/-! A payload that is read names no loader but those that it declares. -/
namespace Resumable

namespace Payload

def Gives {α : Type} (property : α → Prop) (result : Except Diagnostic α) : Prop :=
  ∀ value, result = .ok value → property value

namespace Gives

variable {α β : Type} {property : α → Prop} {other : β → Prop} {result : Except Diagnostic α}
  {next : α → Except Diagnostic β}

lemma ok (holds : property value) : Gives property (.ok value) := by
  rintro _ ⟨⟩
  exact holds

lemma error (failure : Diagnostic) : Gives property (.error failure) := nofun

lemma bind (first : Gives property result) (rest : ∀ value, property value → Gives other (next value)) :
    Gives other (result >>= next) := by
  cases result with
  | error failure => exact error failure
  | ok value => exact rest value (first value rfl)

lemma after (rest : ∀ value, Gives other (next value)) : Gives other (result >>= next) := by
  cases result with
  | error failure => exact error failure
  | ok value => exact rest value

lemma map (first : Gives property result) (rest : ∀ value, property value → other (f value)) :
    Gives other (result.map f) := by
  cases result with
  | error failure => exact error failure
  | ok value => exact ok (rest value (first value rfl))

lemma mapM {values : List β} {f : β → Except Diagnostic α} (each : ∀ value, Gives property (f value)) :
    Gives (fun results => ∀ result ∈ results, property result) (values.mapM f) := by
  induction values with
  | nil => exact ok (by simp)
  | cons value rest ih =>
    rw [List.mapM_cons]
    refine bind (each value) fun first holds => ?_
    refine bind ih fun others all => ?_
    exact ok (List.forall_mem_cons.2 ⟨holds,all⟩)

end Gives

namespace Source

variable {source : Source}

def Knows (source : Source) (names : List String) : Prop := ∀ name ∈ names, (Keyed.get? name source.loaders).isSome

lemma knows_nil : source.Knows [] := by simp [Knows]

lemma gives_target (span : Script.Span) (given : List Script.Expr) :
    Gives (fun target => source.Knows [target.loader]) (source.target span given) := by
  unfold Source.target
  split
  · refine .after fun first => ?_
    refine .after fun second => ?_
    split
    · split
      · rename_i known
        exact .ok (by simpa [Knows] using known)
      · exact .error _
    · exact .error _
  · exact .error _

lemma gives_call (span : Script.Span) (callee : Script.Expr) (given : List Script.Expr) :
    Gives (fun leaf => source.Knows leaf.loaders) (source.call span callee given) := by
  have anchor : Gives (fun leaf => source.Knows leaf.loaders) (source.anchor span given) := by
    unfold Source.anchor
    split
    · refine .after fun first => ?_
      split
      · refine .after fun path => ?_
        exact .ok knows_nil
      · exact .error _
    · exact .error _
  have symbol : Gives (fun leaf => source.Knows leaf.loaders) (source.symbol span given) := by
    unfold Source.symbol
    split
    · refine .after fun first => ?_
      split
      · exact .ok knows_nil
      · exact .error _
    · exact .error _
  unfold Source.call
  split
  · split_ifs
    · exact (gives_target span given).map fun _ known => known
    · exact anchor
    · exact .error _
  · split_ifs
    · exact symbol
    · exact .error _
  · exact .error _

lemma gives_simpleLeaf (value : Script.Expr) :
    Gives (fun leaf => source.Knows leaf.loaders) (source.simpleLeaf value) := by
  unfold Source.simpleLeaf
  split
  case h_5 id =>
    unfold Source.word
    split
    case h_4 => exact .error _
    all_goals exact .ok knows_nil
  case h_6 span operand =>
    unfold Source.negation
    split
    · exact .ok knows_nil
    · split_ifs
      · exact .ok knows_nil
      · exact .error _
    · exact .error _
  case h_7 span parts =>
    have any : Gives (fun _ => True) (source.slot span parts) := fun _ _ => trivial
    exact any.map fun _ _ => knows_nil
  case h_8 span callee given => exact gives_call span callee given
  case h_9 => exact .error _
  all_goals exact .ok knows_nil

lemma gives_leaf (fuel : Nat) (value : Script.Expr) :
    Gives (fun leaf => source.Knows leaf.loaders) (source.leaf fuel value) := by
  cases fuel with
  | zero => exact .error _
  | succ fuel =>
    unfold Source.leaf
    split
    · split_ifs
      · refine .after fun given => ?_
        refine .after fun leaf => ?_
        split
        · exact .ok knows_nil
        · exact .error _
      · exact .error _
    · exact .error _
    · exact gives_simpleLeaf _

section
variable (value : Script.Expr)

lemma gives_element : Gives (fun leaf => source.Knows leaf.loaders) (source.element value) := by
  unfold Source.element
  split
  · exact .error _
  · exact .error _
  · exact gives_leaf _ _

lemma gives_property : Gives (fun field => source.Knows field.2.loaders) (source.property value) := by
  unfold Source.property
  split
  · refine .after fun name => ?_
    split
    · refine .bind (gives_leaf _ _) fun leaf known => ?_
      exact .ok known
    · exact .error _
  · exact .error _
  · exact .error _

lemma gives_body : Gives (fun body => source.Knows (body.leaves.flatMap Leaf.loaders)) (source.body value) := by
  have all {leaves : List Leaf} (known : ∀ leaf ∈ leaves, source.Knows leaf.loaders) :
      source.Knows (leaves.flatMap Leaf.loaders) := by
    intro name listed
    obtain ⟨leaf,member,named⟩ := List.mem_flatMap.1 listed
    exact known leaf member name named
  unfold Source.body
  split
  · exact (Gives.mapM gives_element).map fun _ known => all known
  · split
    · exact (Gives.mapM gives_element).map fun _ known => all known
    · refine (Gives.mapM gives_property).map fun fields known => all fun leaf listed => ?_
      obtain ⟨field,member,rfl⟩ := List.mem_map.1 listed
      exact known field member
  · exact .error _

lemma gives_entry : Gives (fun entry => source.Knows entry.loaders) (source.entry value) := by
  unfold Source.entry
  split
  · unfold Source.allocation
    split
    · refine .after fun slot => ?_
      split
      · exact .ok knows_nil
      · exact .ok knows_nil
      · refine .bind (gives_target _ _) fun target known => ?_
        split
        · split_ifs
          · exact .ok known
          · exact .ok known
          · exact .error _
        · exact .error _
      · exact .error _
    · exact .error _
  · split_ifs
    · unfold Source.filling
      split
      · refine .after fun first => ?_
        split
        · refine .after fun slot => ?_
          refine .after fun second => ?_
          refine .bind (gives_body _) fun body known => ?_
          exact .ok known
        · exact .error _
      · exact .error _
    · exact (gives_leaf _ _).map fun _ known => known
  · exact (gives_leaf _ _).map fun _ known => known

end

lemma gives_entries (statements : List Script.Stmt) :
    Gives (fun entries => ∀ entry ∈ entries, source.Knows entry.loaders) (source.entries statements) := by
  fun_induction source.entries statements with
  | case1 => exact .ok (by simp)
  | case2 literal rest ih => exact ih
  | case3 value span rest ih =>
    refine .bind (gives_entry value) fun first known => ?_
    refine .bind ih fun others all => ?_
    exact .ok (List.forall_mem_cons.2 ⟨known,all⟩)
  | case4 => exact .error _

end Source

lemma declared_of_ofText (read : Payload.ofText text = .ok parsed) :
    ∀ entry ∈ parsed.entries, ∀ name ∈ entry.loaders, (Keyed.get? name parsed.loaders).isSome := by
  revert read parsed
  change Gives _ (Payload.ofText text)
  unfold Payload.ofText
  dsimp only
  split
  · exact .error _
  refine .after fun source => ?_
  refine .bind (Source.gives_entries _) fun entries all => ?_
  refine Gives.ok fun entry listed => ?_
  rcases List.mem_append.1 listed with directive | listed
  · obtain ⟨text,-,rfl⟩ := List.mem_map.1 directive
    exact Source.knows_nil
  · exact all entry listed

end Payload
end Resumable
