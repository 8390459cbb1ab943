import Resumable.Hoisting.Regions
import Resumable.Proofs.Factories

/-! Captures that are passed as references to follow later. One pass over the closures in the order of their numbers
finds them, so a capture is found exactly if the closure is given such a reference and each hoisted closure on the
way out has a smaller number than what stands in it. Functions always have; a class does not come before what stands
in its base and its decorators. -/
namespace Resumable

def Closure.takes (closure : Closure) (target : ClosureIndex) : Prop :=
  ∃ binding ∈ closure.bindings, binding.arg = .closure target

namespace Scoping
open List
variable {tree : Scoping} {placements : Placements} {known : List (ClosureIndex × ClosureIndex)}

variable {id : ClosureIndex} {closure : Closure}

lemma capturesLazily_cons (apart : tree.homeRegion closure ≠ some id) (other target : ClosureIndex) :
    tree.capturesLazily placements ((id, other) :: known) id closure target =
      tree.capturesLazily placements known id closure target := by
  simp only [capturesLazily]
  split
  · rfl
  split
  · rfl
  split
  · rename_i region home
    have distinct : region ≠ id := fun same => apart (home.trans (congrArg some same))
    simp [distinct]
  · rfl

lemma mem_addLazy (apart : tree.homeRegion closure ≠ some id) (c t : ClosureIndex) :
    (c, t) ∈ tree.addLazy placements known (closure, id) ↔ (c, t) ∈ known ∨ (c = id ∧ closure.takes t ∧
        tree.capturesLazily placements known id closure t = true) := by
  unfold addLazy Closure.takes
  dsimp only
  generalize closure.bindings = bindings
  induction bindings generalizing known with
  | nil => simp
  | cons binding rest ih =>
    rw [foldl_cons,ih]
    cases arg : binding.arg with
    | closure target =>
      simp only
      split
      · rename_i lazily
        simp only [capturesLazily_cons apart,mem_cons,Prod.mk.injEq,exists_eq_or_imp,arg, Capture.closure.injEq]
        grind
      · rename_i eager
        simp only [mem_cons,exists_eq_or_imp,arg,Capture.closure.injEq]
        grind
    | identifier name => simp [arg]
    | this owner => simp [arg]
    | arguments owner => simp [arg]

def lazyBefore (tree : Scoping) (placements : Placements) (id : ClosureIndex) : List (ClosureIndex × ClosureIndex) :=
  (tree.closures.zipIdx.take id).foldl (tree.addLazy placements) []

lemma lazyBefore_succ (found : tree.closure? id = some closure) : tree.lazyBefore placements (id + 1) =
      tree.addLazy placements (tree.lazyBefore placements id) (closure, id) := by
  have entry : tree.closures.zipIdx[id]? = some (closure, id) := by
    rw [getElem?_zipIdx,show tree.closures[id]? = some closure from found]
    simp
  rw [lazyBefore,take_add_one, entry,Option.toList_some,foldl_concat]
  rfl

lemma lazyCaptures_eq_lazyBefore (tree : Scoping) (placements : Placements) (last : tree.closures.length ≤ id) :
    tree.lazyCaptures placements = tree.lazyBefore placements id := by
  rw [lazyCaptures,lazyBefore,take_of_length_le]
  simpa using last

section
variable (apart : ∀ {i closure}, tree.closure? i = some closure → tree.homeRegion closure ≠ some i)
include apart

lemma mem_lazyBefore {n : Nat} (bound : n ≤ tree.closures.length) (c t : ClosureIndex) :
    (c, t) ∈ tree.lazyBefore placements n ↔ c < n ∧ ∃ closure, tree.closure? c = some closure ∧ closure.takes t ∧
    tree.capturesLazily placements (tree.lazyBefore placements c) c closure t = true := by
  induction n with
  | zero => simp [lazyBefore]
  | succ n ih =>
    have found : tree.closure? n = some tree.closures[n] := getElem?_eq_getElem bound
    rw [lazyBefore_succ found,mem_addLazy (apart found),ih (Nat.le_of_succ_le bound)]
    constructor
    · rintro (⟨before,facts⟩ | ⟨rfl,facts⟩)
      · exact ⟨Nat.lt_add_one_of_lt before,facts⟩
      · exact ⟨Nat.lt_add_one c,_,found,facts⟩
    · rintro ⟨before,closure, entry,facts⟩
      by_cases same : c = n
      · subst same
        cases entry.symm.trans found
        exact .inr ⟨rfl,facts⟩
      · exact .inl ⟨Nat.lt_of_le_of_ne (Nat.le_of_lt_add_one before) same,closure, entry,facts⟩

/-- A capture is lazy if its target is bound no earlier in the same region, or if it is lazy for the
closure whose region it is, provided that closure has the smaller number. -/
lemma mem_lazyCaptures (placements : Placements) (c t : ClosureIndex) : (c, t) ∈ tree.lazyCaptures placements ↔
    ∃ closure unit, tree.closure? c = some closure ∧ tree.closure? t = some unit ∧ closure.takes t ∧
    ((tree.homeRegion closure = tree.homeRegion unit ∧
    (callSite placements c closure).le (callSite placements t unit) = true) ∨
    (tree.homeRegion closure ≠ tree.homeRegion unit ∧ ∃ region, tree.homeRegion closure = some region ∧ region < c ∧
    (region, t) ∈ tree.lazyCaptures placements)) := by
  have earlier : ∀ region, c < tree.closures.length → ((region, t) ∈ tree.lazyBefore placements c ↔
      region < c ∧ (region, t) ∈ tree.lazyCaptures placements) := by
    intro region bound
    rw [lazyCaptures_eq_lazyBefore tree placements le_rfl,mem_lazyBefore apart le_rfl,mem_lazyBefore apart bound.le]
    constructor
    · rintro ⟨before,facts⟩
      exact ⟨before,before.trans bound,facts⟩
    · rintro ⟨before,_,facts⟩
      exact ⟨before,facts⟩
  rw [lazyCaptures_eq_lazyBefore tree placements le_rfl,mem_lazyBefore apart le_rfl,
    ← lazyCaptures_eq_lazyBefore tree placements le_rfl]
  constructor
  · rintro ⟨bound,closure,found,takes,lazily⟩
    simp only [capturesLazily] at lazily
    split at lazily
    · cases lazily
    rename_i unit unitFound
    refine ⟨closure,unit,found,unitFound,takes,?_⟩
    split at lazily
    · rename_i same
      exact .inl ⟨beq_iff_eq.1 same,lazily⟩
    rename_i other
    refine .inr ⟨fun same => other (beq_iff_eq.2 same),?_⟩
    split at lazily
    · rename_i region home
      exact ⟨region,home,(earlier region bound).1 (contains_iff_mem.1 lazily)⟩
    · cases lazily
  · rintro ⟨closure,unit,found,unitFound,takes,lazily⟩
    have bound := (List.getElem?_eq_some_iff.1 found).1
    refine ⟨bound,closure,found,takes,?_⟩
    rcases lazily with ⟨same,order⟩ | ⟨other,region,home,before,outer⟩
    · simp [capturesLazily,unitFound,same,order]
    · have listed := (earlier region bound).2 ⟨before,outer⟩
      rw [home] at other
      simp [capturesLazily,unitFound,home,other,listed]

end

end Scoping

namespace Plan

/-- Whether what a closure gets for a captured one is a reference to follow later: where that one is
declared, by the argument that is written; further in, by what the closure around it gets. -/
inductive GivenThunk (plan : Plan) (target : ClosureIndex) : ClosureIndex → Prop where
  | here {id : ClosureIndex} {closure unit : Closure} {binding : Binding} (found : plan.tree.closure? id = some closure)
      (unitFound : plan.tree.closure? target = some unit)
      (member : binding ∈ closure.bindings) (arg : binding.arg = .closure target)
      (home : plan.tree.homeRegion closure = plan.tree.homeRegion unit)
      (text : plan.argument id closure binding =
        .ok ("__lazyRef(\"" ++ unit.exportName ++ "\", () => " ++ binding.param ++ ")")) :
    GivenThunk plan target id
  | around {id region : ClosureIndex} {closure unit : Closure} (found : plan.tree.closure? id = some closure)
      (unitFound : plan.tree.closure? target = some unit) (takes : closure.takes target)
      (apart : plan.tree.homeRegion closure ≠ plan.tree.homeRegion unit)
      (home : plan.tree.homeRegion closure = some region)
      (outer : GivenThunk plan target region) :
    GivenThunk plan target id

/-- Each hoisted closure around one, up to where a captured one is declared, has a smaller number
than what stands in it. -/
inductive OuterFirst (plan : Plan) (target : ClosureIndex) : ClosureIndex → Prop where
  | here {id : ClosureIndex} {closure unit : Closure} (found : plan.tree.closure? id = some closure)
      (unitFound : plan.tree.closure? target = some unit)
      (home : plan.tree.homeRegion closure = plan.tree.homeRegion unit) :
    OuterFirst plan target id
  | around {id region : ClosureIndex} {closure : Closure} (found : plan.tree.closure? id = some closure)
      (home : plan.tree.homeRegion closure = some region) (before : region < id)
      (outer : OuterFirst plan target region) :
    OuterFirst plan target id

variable {plan : Plan} {id target : ClosureIndex} {closure unit : Closure}

lemma closureText_eq_lazyRef_iff (unitFound : plan.tree.closure? target = some unit)
    (home : plan.tree.homeRegion closure = plan.tree.homeRegion unit) (name : String) :
    plan.closureText id closure target name = "__lazyRef(\"" ++ unit.exportName ++ "\", () => " ++ name ++ ")" ↔
      (id, target) ∈ plan.lazy := by
  by_cases lazily : (id, target) ∈ plan.lazy
  · simp [closureText,unitFound,home,lazily]
  have longer : name ≠ "__lazyRef(\"" ++ unit.exportName ++ "\", () => " ++ name ++ ")" := by
    intro equal
    have lengths := congrArg String.length equal
    simp only [String.length_append] at lengths
    have first : "__lazyRef(\"".length = 11 := rfl
    omega
  simp [closureText,unitFound,lazily,longer]

/-- How a reference to a closure that is reached through a thunk is written, by its position. What is assigned to
stays as it is, and a tag cannot be a call. -/
def followEdit (plan : Plan) (unit : Closure) (reference : Reference) (name : String) :
    Except Diagnostic (Option Edit) :=
  match reference.position with
  | .plain => .ok (some (Edit.ofSpan reference.span (name ++ "()")))
  | .constructed => .ok (some (Edit.ofSpan reference.span ("(" ++ (name ++ "()") ++ ")")))
  | .shorthand => .ok (some (Edit.ofSpan reference.span (name ++ ": " ++ (name ++ "()"))))
  | .assigned => .ok none
  | .tag => .error (plan.lazyTag name unit)

lemma useEdit_of_region (unitFound : plan.tree.closure? target = some unit)
    (names : plan.tree.liftedDeclaration? reference = some target) (mention : reference.mention = .identifier name)
    (region : plan.tree.regionAround reference.scope = some id) (apart : plan.tree.homeRegion unit ≠ some id) :
    plan.useEdit reference = if (id, target) ∈ plan.lazy then plan.followEdit unit reference name else .ok none := by
  have other : some id ≠ plan.tree.homeRegion unit := Ne.symm apart
  have replaced : plan.replacement? target unit reference name =
      .ok (if (id, target) ∈ plan.lazy then some (name ++ "()") else none) := by
    simp [replacement?,region,other]
  simp only [useEdit,mention,variableEdit,names,unitFound,replaced]
  by_cases lazily : (id, target) ∈ plan.lazy
  · cases position : reference.position <;> simp [lazily,followEdit,position,Edit.ofSpan] <;> rfl
  · simp only [lazily,if_false]
    rfl

variable {tree : Scoping} {nests : Prop}

lemma homeRegion_ne (sound : tree.Sound nests Scoping.root) (found : tree.closure? id = some closure) :
    tree.homeRegion closure ≠ some id := by
  intro home
  obtain ⟨same,sameFound,_,around⟩ := sound.closure_of_region home
  cases found.symm.trans sameFound
  obtain ⟨scope, entry,_,up⟩ := sound.owned found
  exact (sound.parented entry up).not_ge (Scoping.le_of_mem_chain sound.parented around)

lemma mem_lazy_iff (sound : tree.Sound nests Scoping.root) (file : String) : (id, target) ∈ (tree.plan file).lazy ↔
      (tree.plan file).GivenThunk target id ∧ (tree.plan file).OuterFirst target id := by
  have step := fun c => Scoping.mem_lazyCaptures (fun found => homeRegion_ne sound found)
    (tree.placements tree.usage) c target
  constructor
  · intro lazily
    induction id using Nat.strongRecOn with
    | ind id ih =>
      obtain ⟨closure,unit,found,unitFound,takes,⟨home,_⟩ | ⟨apart,region,home,before,outer⟩⟩ := (step id).1 lazily
      · obtain ⟨binding,member,arg⟩ := takes
        refine ⟨.here found unitFound member arg home ?_,.here found unitFound home⟩
        rw [argument,arg]
        exact congrArg Except.ok ((closureText_eq_lazyRef_iff unitFound home _).2 lazily)
      · obtain ⟨given,first⟩ := ih region before outer
        exact ⟨.around found unitFound takes apart home given,.around found home before first⟩
  · rintro ⟨given,first⟩
    induction given with
    | here found unitFound member arg home text =>
      rw [argument,arg] at text
      exact (closureText_eq_lazyRef_iff unitFound home _).1 (Except.ok.inj text)
    | @around id region closure unit found unitFound takes apart home outer ih =>
      cases first with
      | here found' unitFound' home' =>
        cases found.symm.trans found'
        cases unitFound.symm.trans unitFound'
        exact absurd home' apart
      | around found' home' before firstOuter =>
        cases found.symm.trans found'
        cases home.symm.trans home'
        exact (step id).2 ⟨closure,unit,found,unitFound,takes, .inr ⟨apart,region,home,before,ih firstOuter⟩⟩

end Plan

/-- A capture is found to be lazy exactly if the closure is given a reference to follow and the
closures around it come first. References in the closure's code follow it exactly then, as their positions
allow. A closure around another one comes first unless it is a class. -/
theorem lazy_iff_given_thunk_outer_first (setting : Selecting) (program : Script.Program)
    (file : String) {id : ClosureIndex} {closure : Closure}
    (found : (analyze setting program).tree.bindAll.closure? id = some closure) :
    let plan := (analyze setting program).tree.bindAll.plan file
    (∀ target, (id, target) ∈ plan.lazy ↔
      plan.GivenThunk target id ∧ plan.OuterFirst target id) ∧
    (∀ target unit reference name, plan.tree.closure? target = some unit →
      plan.tree.liftedDeclaration? reference = some target → reference.mention = .identifier name →
      plan.tree.regionAround reference.scope = some id → plan.tree.homeRegion unit ≠ some id →
      plan.useEdit reference =
        if (id, target) ∈ plan.lazy then plan.followEdit unit reference name else .ok none) ∧
    (∀ region outer, plan.tree.homeRegion closure = some region →
      plan.tree.closure? region = some outer → outer.kind ≠ .classLiteral → region < id) := by
  have sound : (analyze setting program).tree.bindAll.Sound False Scoping.root :=
    (analyze_sound setting program (by simp)).bindAll
  refine ⟨fun target => Plan.mem_lazy_iff sound file, ?_, ?_⟩
  · intro target unit reference name unitFound names mention region apart
    exact Plan.useEdit_of_region unitFound names mention region apart
  · intro region outer home outerFound function
    obtain ⟨same, sameFound, _, around⟩ := sound.closure_of_region home
    cases outerFound.symm.trans sameFound
    exact sound.ordered outerFound found function around

/-- `function outer() { class A extends mixin(() => B) {} class B {} return [A, A]; }` -/
def mixinOfLaterClass : Script.Program where
  span := ⟨0,83⟩
  body := [.function (.mk { span := ⟨0,83⟩, name := some ⟨"outer",⟨9,14⟩⟩, paramsStart := 14 } []
    [.classDecl (.mk { span := ⟨19,53⟩, name := some ⟨"A",⟨25,26⟩⟩ } [] [.node .call ⟨35,49⟩ [.name ⟨"mixin",⟨35,40⟩⟩,
        .arrow (.mk { span := ⟨41,48⟩, paramsStart := 41 } [] [.expression (.name ⟨"B",⟨47,48⟩⟩) ⟨47,48⟩])]] []),
     .classDecl (.mk { span := ⟨55,65⟩, name := some ⟨"B",⟨61,62⟩⟩ } [] [] []),
     .returns [.node .array ⟨74,80⟩ [.name ⟨"A",⟨75,76⟩⟩,.name ⟨"A",⟨78,79⟩⟩]] ⟨67,81⟩])]

lemma mixinOfLaterClass_lazy : (analyze everything mixinOfLaterClass).tree.bindAll.lazyCaptures
      ((analyze everything mixinOfLaterClass).tree.bindAll.placements
        (analyze everything mixinOfLaterClass).tree.bindAll.usage) = [(2, 3)] := by
  decide +kernel

/-- `function outer() { const g = () => { B = null; return B; }; class B {} return [g, B, B]; }` -/
def assignsLaterClass : Script.Program where
  span := ⟨0,90⟩
  body := [.function (.mk { span := ⟨0,90⟩, name := some ⟨"outer",⟨9,14⟩⟩, paramsStart := 14 } []
    [.variableDecl .const [.slot [] (.bind ⟨"g",⟨25,26⟩⟩) [.arrow (.mk { span := ⟨29,58⟩, paramsStart := 29 } []
      [.expression (.assign true ⟨37,45⟩ (.target ⟨"B",⟨37,38⟩⟩) (.null ⟨41,45⟩)) ⟨37,46⟩,
        .returns [.name ⟨"B",⟨54,55⟩⟩] ⟨47,56⟩])]] ⟨19,59⟩,
     .classDecl (.mk { span := ⟨60,70⟩, name := some ⟨"B",⟨66,67⟩⟩ } [] [] []),
     .returns [.node .array ⟨78,87⟩ [.name ⟨"g",⟨79,80⟩⟩,.name ⟨"B",⟨82,83⟩⟩,.name ⟨"B",⟨85,86⟩⟩]] ⟨71,88⟩])]

lemma assignsLaterClass_lazy : (analyze everything assignsLaterClass).tree.bindAll.lazyCaptures
      ((analyze everything assignsLaterClass).tree.bindAll.placements
        (analyze everything assignsLaterClass).tree.bindAll.usage) = [(1, 2)] := by
  decide +kernel

def Reference.toClass (start : Nat) (position : Position) : Reference :=
  ⟨.identifier "B",⟨start,start + 1⟩,2,position⟩

/-- The arrow function is given a reference to the class. Its code follows it where it reads the variable, and not
where it assigns to it. -/
theorem assignsLaterClass_follows :
    let plan := (analyze everything assignsLaterClass).tree.bindAll.plan "a.js"
    plan.GivenThunk 2 1 ∧ plan.OuterFirst 2 1 ∧
      plan.tree.rootReferences.take 2 = [.toClass 37 .assigned, .toClass 54 .plain] ∧
      plan.useEdit (.toClass 37 .assigned) = .ok none ∧
      plan.useEdit (.toClass 54 .plain) = .ok (some ⟨54,55,"B()"⟩) := by
  intro plan
  have arrow : (plan.tree.closure? 1).isSome = true := by decide +kernel
  have second : (plan.tree.closure? 2).map plan.tree.homeRegion = some none := by decide +kernel
  have assigned : plan.tree.liftedDeclaration? (.toClass 37 .assigned) = some 2 := by decide +kernel
  have read : plan.tree.liftedDeclaration? (.toClass 54 .plain) = some 2 := by decide +kernel
  have around : plan.tree.regionAround 2 = some 1 := by decide +kernel
  obtain ⟨closure, found⟩ := Option.isSome_iff_exists.mp arrow
  obtain ⟨unit, unitFound, home⟩ := Option.map_eq_some_iff.mp second
  obtain ⟨lazy, edits, -⟩ := lazy_iff_given_thunk_outer_first everything assignsLaterClass "a.js" found
  have lazily : (1, 2) ∈ plan.lazy := by simp [plan, Scoping.plan, assignsLaterClass_lazy]
  have apart : plan.tree.homeRegion unit ≠ some 1 := by simp [home]
  obtain ⟨given, first⟩ := (lazy 2).mp lazily
  refine ⟨given, first, by decide +kernel, ?_, ?_⟩
  · exact (edits 2 unit _ "B" unitFound assigned rfl around apart).trans (if_pos lazily)
  · exact (edits 2 unit _ "B" unitFound read rfl around apart).trans (if_pos lazily)

/-- The function in the base of the first class is handed the same reference, but its code uses it as
the class: the function has the smaller number of the two. -/
theorem mixinOfLaterClass_not_followed :
    let plan := (analyze everything mixinOfLaterClass).tree.bindAll.plan "a.js"
    plan.GivenThunk 3 1 ∧ (1, 3) ∉ plan.lazy ∧
      ∃ reference ∈ plan.tree.rootReferences, plan.tree.regionAround reference.scope = some 1 ∧
        plan.tree.liftedDeclaration? reference = some 3 ∧
        (plan.useEdit reference).toOption = some none := by
  intro plan
  have sound : plan.tree.Sound False Scoping.root := (analyze_sound everything mixinOfLaterClass (by simp)).bindAll
  have arrow : (plan.tree.closure? 1).map (fun closure =>
      (closure.bindings.map Binding.arg, plan.tree.homeRegion closure)) = some ([.closure 3], some 2) := by
    decide +kernel
  have second : (plan.tree.closure? 3).map plan.tree.homeRegion = some none := by decide +kernel
  obtain ⟨closure, found, facts⟩ := Option.map_eq_some_iff.mp arrow
  obtain ⟨args, home⟩ := Prod.mk.inj facts
  obtain ⟨unit, unitFound, top⟩ := Option.map_eq_some_iff.mp second
  have takes : closure.takes 3 := by
    have member : Capture.closure 3 ∈ closure.bindings.map Binding.arg := by simp [args]
    exact List.mem_map.mp member
  have outer : plan.GivenThunk 3 2 := by
    have lazily : (2, 3) ∈ plan.lazy := by simp [plan, Scoping.plan, mixinOfLaterClass_lazy]
    exact ((Plan.mem_lazy_iff sound "a.js").mp lazily).1
  refine ⟨.around found unitFound takes ?_ home outer, ?_, ?_⟩
  · exact fun same => Option.some_ne_none 2 (home.symm.trans (same.trans top))
  · simp [plan, Scoping.plan, mixinOfLaterClass_lazy]
  · decide +kernel

end Resumable
