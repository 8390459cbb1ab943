import Resumable.Proofs.Likeness

/-! Comparison decides isomorphism. The matching that a comparison goes through is one-to-one at every
step, so when the comparison succeeds it is an isomorphism of what was reached; and it stays within any
isomorphism there is. -/
namespace Resumable.Graph
open List
variable {left right third : Graph} {relation other : CellId → CellId → Prop} {a b c v w : Value}
  {x y : CellId} {cell : Cell} {matching : Matching} {pairs : List (Value × Value)} {fuel : Nat}

/-- A one-to-one relation between the containers that are reached from two values. -/
structure Isomorphism (left right : Graph) (a b : Value) (relation : CellId → CellId → Prop) : Prop
    extends Likeness left right relation where
  roots : Matches left right relation a b
  reached : ∀ {x y}, relation x y → left.Reaches [a] (.ref x) ∧ right.Reaches [b] (.ref y)
  total : ∀ {x}, left.Reaches [a] (.ref x) → (left.cell? x).any Cell.isContainer = true → ∃ y, relation x y
  onto : ∀ {y}, right.Reaches [b] (.ref y) → (right.cell? y).any Cell.isContainer = true → ∃ x, relation x y

/-! ### Values and cells that match -/

lemma Matches.symm (matched : Matches left right relation v w) : Matches right left (fun y x => relation x y) w v := by
  obtain ⟨label,first,second,refs⟩ := matched
  refine ⟨label,second,first,fun container => ?_⟩
  obtain ⟨x,y,isX,isY,here⟩ := refs container
  exact ⟨y,x,isY,isX,here⟩

lemma Matches.trans (first : Matches left right relation a b) (second : Matches right third other b c) :
    Matches left third (fun x z => ∃ y, relation x y ∧ other y z) a c := by
  obtain ⟨label,labelA,labelB,refs⟩ := first
  obtain ⟨_,labelB',labelC,refs'⟩ := second
  cases labelB.symm.trans labelB'
  refine ⟨label,labelA,labelC,fun container => ?_⟩
  obtain ⟨x,y,rfl,rfl,here⟩ := refs container
  obtain ⟨_,z,⟨rfl⟩,rfl,there⟩ := refs' container
  exact ⟨x,z,rfl,rfl,y,here,there⟩

lemma CellsMatch.symm (matched : CellsMatch left right relation x y) :
    CellsMatch right left (fun y x => relation x y) y x := by
  obtain ⟨first,second,make,foundX,foundY,makeX,makeY,parts⟩ := matched
  exact ⟨second,first,make,foundY,foundX,makeY,makeX,(parts.imp fun _ _ => Matches.symm).flip⟩

lemma CellsMatch.trans (first : CellsMatch left right relation x y) (second : CellsMatch right third other y z) :
    CellsMatch left third (fun x z => ∃ y, relation x y ∧ other y z) x z := by
  obtain ⟨cellX,_,make,foundX,foundY,makeX,makeY,parts⟩ := first
  obtain ⟨_,cellZ,_,foundY',foundZ,makeY',makeZ,parts'⟩ := second
  cases foundY.symm.trans foundY'
  cases makeY.symm.trans makeY'
  refine ⟨cellX,cellZ,make,foundX,foundZ,makeX,makeZ,?_⟩
  rw [forall₂_iff_get] at parts parts' ⊢
  refine ⟨parts.1.trans parts'.1,fun n low high => ?_⟩
  exact (parts.2 n low (parts.1 ▸ low)).trans (parts'.2 n (parts.1 ▸ low) high)

lemma label_of_container (found : left.cell? x = some cell) (contains : cell.isContainer = true)
    (labelled : left.label? (.ref x) = some label) : label = .container := by
  cases cell with
  | lazy | custom => cases contains
  | _ =>
    simp only [label?,found,Option.map_eq_some_iff] at labelled
    exact labelled.choose_spec.2.symm

section

variable (roots : Matches left right relation a b) (cells : ∀ {x y}, relation x y → CellsMatch left right relation x y)

include roots cells

/-- What is reached on one side has a match on the other. -/
lemma exists_matches (reached : left.Reaches [a] v) : ∃ w, Matches left right relation v w := by
  induction reached with
  | root listed => exact ⟨b,mem_singleton.1 listed ▸ roots⟩
  | @part id cell value _ found listed ih =>
    obtain ⟨w,label,labelled,-,refs⟩ := ih
    have contains : cell.isContainer = true := by
      cases cell with
      | lazy | custom => cases listed
      | _ => rfl
    obtain ⟨_,y,⟨rfl⟩,-,here⟩ := refs (label_of_container found contains labelled)
    obtain ⟨_,second,-,foundX,-,-,-,parts⟩ := cells here
    cases found.symm.trans foundX
    obtain ⟨n,bound,rfl⟩ := getElem_of_mem listed
    rw [forall₂_iff_get] at parts
    exact ⟨_,parts.2 n bound (parts.1 ▸ bound)⟩

lemma exists_related (reached : left.Reaches [a] (.ref x))
    (contains : (left.cell? x).any Cell.isContainer = true) : ∃ y, relation x y := by
  obtain ⟨w,label,labelled,-,refs⟩ := exists_matches roots cells reached
  obtain ⟨cell,found,contains⟩ := (Option.any_eq_true _ _).1 contains
  obtain ⟨_,y,⟨rfl⟩,-,here⟩ := refs (label_of_container found contains labelled)
  exact ⟨y,here⟩

end

/-- A likeness of what is reached leaves out nothing. -/
lemma Likeness.isomorphism (likeness : Likeness left right relation) (roots : Matches left right relation a b)
    (reached : ∀ {x y}, relation x y → left.Reaches [a] (.ref x) ∧ right.Reaches [b] (.ref y)) :
    Isomorphism left right a b relation where
  toLikeness := likeness
  roots
  reached
  total := exists_related roots likeness.cells
  onto := exists_related roots.symm fun here => (likeness.cells here).symm

lemma Isomorphism.symm (iso : Isomorphism left right a b relation) :
    Isomorphism right left b a fun y x => relation x y :=
  Likeness.isomorphism ⟨iso.injective,iso.functional,fun here => (iso.cells here).symm⟩ iso.roots.symm
    fun here => (iso.reached here).symm

lemma Isomorphism.trans (first : Isomorphism left right a b relation) (second : Isomorphism right third b c other) :
    Isomorphism left third a c fun x z => ∃ y, relation x y ∧ other y z := by
  refine Likeness.isomorphism ⟨?_,?_,?_⟩ (first.roots.trans second.roots) ?_
  · rintro x z z' ⟨y,here,there⟩ ⟨y',here',there'⟩
    cases first.functional here here'
    exact second.functional there there'
  · rintro x x' z ⟨y,here,there⟩ ⟨y',here',there'⟩
    cases second.injective there there'
    exact first.injective here here'
  · rintro x z ⟨y,here,there⟩
    exact (first.cells here).trans (second.cells there)
  · rintro x z ⟨y,here,there⟩
    exact ⟨(first.reached here).1,(second.reached there).2⟩

/-- A graph is like itself where everything that is reached can be compared. -/
lemma isomorphism_refl (labelled : ∀ {v}, left.Reaches [a] v → ∃ label, left.label? v = some label) :
    Isomorphism left left a a fun x y =>
      x = y ∧ left.Reaches [a] (.ref x) ∧ left.label? (.ref x) = some .container := by
  have matched {v : Value} (reached : left.Reaches [a] v) : Matches left left (fun x y =>
      x = y ∧ left.Reaches [a] (.ref x) ∧ left.label? (.ref x) = some .container) v v := by
    obtain ⟨label,known⟩ := labelled reached
    refine ⟨label,known,known,?_⟩
    rintro rfl
    cases v with
    | ref x => exact ⟨x,x,rfl,rfl,rfl,reached,known⟩
    | _ => cases known
  refine Likeness.isomorphism ⟨?_,?_,?_⟩ (matched (.root mem_cons_self)) ?_
  · rintro x y z ⟨rfl,-⟩ ⟨rfl,-⟩
    rfl
  · rintro x y z ⟨rfl,-⟩ ⟨rfl,-⟩
    rfl
  · rintro x _ ⟨rfl,reached,known⟩
    cases found : left.cell? x with
    | none => simp [label?,found] at known
    | some cell =>
      obtain ⟨make,made⟩ : ∃ make, cell.make? = some make := by
        cases cell with
        | lazy | custom => simp [label?,found,Cell.make?] at known
        | _ => simpa [label?,found,Option.map_eq_some_iff] using known
      exact ⟨cell,cell,make,found,found,made,made,
        forall₂_same.2 fun part listed => matched (.part reached found listed)⟩
  · rintro x _ ⟨rfl,reached,-⟩
    exact ⟨reached,reached⟩

/-! ### What a comparison goes through -/

lemma label_of_leaf (leaf : ∀ x, v ≠ .ref x) : ∃ label ≠ .container, left.label? v = some label := by
  cases v with
  | ref x => exact absurd rfl (leaf x)
  | _ => simp [label?]

lemma matches_of_leavesAgree (agree : left.leavesAgree right v w = true) : Matches left right relation v w := by
  obtain ⟨leaf,-,same⟩ := leavesAgree_iff.1 agree
  obtain ⟨label,plain,labelled⟩ := label_of_leaf leaf
  exact ⟨label,labelled,same ▸ labelled,fun container => absurd container plain⟩

/-- Containers that were entered together, each of them once. -/
structure Entered (left right : Graph) (a b : Value) (matching : Matching) : Prop where
  oneToOne : ∀ pair ∈ matching, ∀ other ∈ matching, pair.1 = other.1 ↔ pair.2 = other.2
  labels : ∀ pair ∈ matching, left.label? (.ref pair.1) = some .container ∧ right.label? (.ref pair.2) = some .container
  reached : ∀ pair ∈ matching, left.Reaches [a] (.ref pair.1) ∧ right.Reaches [b] (.ref pair.2)

lemma matches_of_mem (entered : Entered left right a b matching) (listed : (x, y) ∈ matching) :
    Matches left right (fun x y => (x, y) ∈ matching) (.ref x) (.ref y) :=
  ⟨.container,(entered.labels _ listed).1,(entered.labels _ listed).2,fun _ => ⟨x,y,rfl,rfl,listed⟩⟩

/-- A comparison that succeeds has entered all that matches. The pairs that it starts from match once
the matching is complete, not when they are met: that is why the end of the run is given first. -/
lemma Entered.agree (entered : Entered left right a b matching)
    (reached : ∀ pair ∈ pairs, left.Reaches [a] pair.1 ∧ right.Reaches [b] pair.2)
    (agreed : left.agree right fuel matching pairs = some true) :
    ∃ final, matching ⊆ final ∧ Entered left right a b final ∧
      (∀ pair ∈ pairs, Matches left right (fun x y => (x, y) ∈ final) pair.1 pair.2) ∧
      ∀ pair ∈ final, pair ∈ matching ∨ CellsMatch left right (fun x y => (x, y) ∈ final) pair.1 pair.2 := by
  induction fuel generalizing matching pairs with
  | zero =>
    cases pairs with
    | nil => exact ⟨matching,Subset.refl _,entered,by simp,fun _ => .inl⟩
    | cons pair rest => simp [Graph.agree] at agreed
  | succ fuel ih =>
    cases pairs with
    | nil => exact ⟨matching,Subset.refl _,entered,by simp,fun _ => .inl⟩
    | cons pair rest =>
      obtain ⟨v,w⟩ := pair
      obtain ⟨⟨reachedV,reachedW⟩,reachedRest⟩ := forall_mem_cons.1 reached
      by_cases refs : ∃ x y, v = .ref x ∧ w = .ref y
      · obtain ⟨x,y,rfl,rfl⟩ := refs
        rcases agree_ref agreed (by simp) with ⟨listed,agreed⟩ |
          ⟨first,second,make,foundX,foundY,makeX,makeY,lengths,new,agreed⟩ | ⟨target,foundX,foundY,agreed⟩
        · obtain ⟨final,within,entered,rest,cells⟩ := ih entered reachedRest agreed
          exact ⟨final,within,entered, forall_mem_cons.2 ⟨matches_of_mem entered (within listed),rest⟩,cells⟩
        · have more : Entered left right a b ((x, y) :: matching) := by
            refine ⟨?_,forall_mem_cons.2 ⟨⟨label_of_make foundX makeX,label_of_make foundY makeY⟩,
              entered.labels⟩,forall_mem_cons.2 ⟨⟨reachedV,reachedW⟩,entered.reached⟩⟩
            have old := entered.oneToOne
            grind
          have parts : ∀ pair ∈ first.parts.zip second.parts ++ rest,
              left.Reaches [a] pair.1 ∧ right.Reaches [b] pair.2 := by
            intro pair listed
            rcases mem_append.1 listed with listed | listed
            · have both := of_mem_zip (a := pair.1) (b := pair.2) listed
              exact ⟨.part reachedV foundX both.1,.part reachedW foundY both.2⟩
            · exact reachedRest pair listed
          obtain ⟨final,within,entered,all,cells⟩ := ih more parts agreed
          have here : (x, y) ∈ final := within mem_cons_self
          refine ⟨final,fun pair listed => within (mem_cons_of_mem _ listed),entered,?_,?_⟩
          · refine forall_mem_cons.2 ⟨matches_of_mem entered here,fun pair listed => ?_⟩
            exact all pair (mem_append_right _ listed)
          · intro pair listed
            rcases cells pair listed with listed | matched
            · rcases mem_cons.1 listed with rfl | listed
              · refine .inr ⟨first,second,make,foundX,foundY,makeX,makeY,?_⟩
                refine forall₂_iff_zip.2 ⟨lengths,fun listed => ?_⟩
                exact all _ (mem_append_left _ listed)
              · exact .inl listed
            · exact .inr matched
        · obtain ⟨final,within,entered,rest,cells⟩ := ih entered reachedRest agreed
          refine ⟨final,within,entered,forall_mem_cons.2 ⟨?_,rest⟩,cells⟩
          exact ⟨.lazy target,by simp [label?,foundX],by simp [label?,foundY],by simp⟩
      · obtain ⟨same,agreed⟩ := agree_leaf refs agreed (by simp)
        obtain ⟨final,within,entered,rest,cells⟩ := ih entered reachedRest agreed
        exact ⟨final,within,entered,forall_mem_cons.2 ⟨matches_of_leavesAgree same,rest⟩,cells⟩

lemma exists_isomorphism (agreed : left.agree right fuel [] [(a, b)] = some true) :
    ∃ relation, Isomorphism left right a b relation := by
  have entered : Entered left right a b [] := ⟨by simp,by simp,by simp⟩
  obtain ⟨final,-,entered,roots,cells⟩ := entered.agree
    (forall_mem_singleton.2 ⟨.root mem_cons_self,.root mem_cons_self⟩) agreed
  refine ⟨fun x y => (x, y) ∈ final,Likeness.isomorphism ⟨?_,?_,?_⟩ (roots _ mem_cons_self) (entered.reached _)⟩
  · exact fun first second => (entered.oneToOne _ first _ second).1 rfl
  · exact fun first second => (entered.oneToOne _ first _ second).2 rfl
  · exact fun listed => (cells _ listed).resolve_left not_mem_nil

lemma agree_iff_isomorphism (enough : left.comparisons < fuel) :
    left.agree right fuel [] [(a, b)] = some true ↔ ∃ relation, Isomorphism left right a b relation :=
  ⟨exists_isomorphism,fun ⟨_,iso⟩ => iso.toLikeness.agrees iso.roots enough⟩

/-- A comparison ends within its bound, and succeeds exactly if there is an isomorphism. It is an
equivalence between values from which neither custom objects nor functions whose making is not known
are reached. -/
theorem comparison_decides_isomorphism (left right : Graph) (a b : Value) :
    (left.isLike right a b = true ↔ ∃ relation, Isomorphism left right a b relation) ∧
    (∀ fuel > left.comparisons, left.agree right fuel [] [(a, b)] = some (left.isLike right a b)) ∧
    left.isLike right a b = right.isLike left b a ∧
    (∀ third c, left.isLike right a b = true → right.isLike third b c = true → left.isLike third a c = true) ∧
    ((∀ v, left.Reaches [a] v → ∃ label, left.label? v = some label) → left.isLike left a a = true) := by
  have decides {left right : Graph} {a b : Value} :
      left.isLike right a b = true ↔ ∃ relation, Isomorphism left right a b relation :=
    beq_iff_eq.trans (agree_iff_isomorphism (Nat.lt_succ_self _))
  refine ⟨decides,?_,?_,?_,?_⟩
  · intro fuel enough
    have ends : left.agree right fuel [] [(a, b)] ≠ none := agree_ne_none enough
    obtain ⟨result,is⟩ := Option.ne_none_iff_exists'.1 ends
    rw [is,Option.some_inj,Bool.eq_iff_iff,decides,← agree_iff_isomorphism enough,is,Option.some_inj]
  · rw [Bool.eq_iff_iff,decides,decides]
    exact ⟨fun ⟨_,iso⟩ => ⟨_,iso.symm⟩,fun ⟨_,iso⟩ => ⟨_,iso.symm⟩⟩
  · intro third c first second
    obtain ⟨_,first⟩ := decides.1 first
    obtain ⟨_,second⟩ := decides.1 second
    exact decides.2 ⟨_,first.trans second⟩
  · intro labelled
    exact decides.2 ⟨_,isomorphism_refl fun reached => labelled _ reached⟩

end Resumable.Graph
