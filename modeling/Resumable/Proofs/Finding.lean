import Resumable.Proofs.Recording

/-! What a recording finds in one place. A value is shown as it is, or by the slot of a container; a custom
object is what its hook leads to. Nothing is found for a function of unknown origin, nor for hooks that lead
back to themselves, and then nothing has been taken. -/
namespace Resumable

variable {passed : List CellId}

/-- The values that a cell leads to when it is recorded. -/
def Cell.leadsTo : Cell → List Value
  | .custom target _ => [target]
  | cell => cell.parts

/-- The values that are met when some values are recorded. -/
inductive Graph.Meets (graph : Graph) (roots : List Value) : Value → Prop
  | root {value : Value} (listed : value ∈ roots) : Meets graph roots value
  | next {id : CellId} {cell : Cell} {value : Value} (outer : Meets graph roots (.ref id))
    (found : graph.cell? id = some cell) (listed : value ∈ cell.leadsTo) : Meets graph roots value

def Graph.IsCustom (graph : Graph) (id : CellId) : Prop := ∃ target fresh, graph.cell? id = some (.custom target fresh)

/-- A container that a hook may answer a copy of. -/
def Cell.isCopied : Cell → Bool
  | .array _ | .object _ _ => true
  | _ => false

lemma Cell.isContainer_of_isCopied {cell : Cell} (isCopied : cell.isCopied = true) : cell.isContainer = true := by
  cases cell <;> first | rfl | cases isCopied

/-- A graph with copies of arrays and objects behind its own cells. -/
def Graph.Copied (graph later : Graph) : Prop :=
  ∃ copies, later = { graph with cells := graph.cells ++ copies } ∧ ∀ cell ∈ copies, cell.isCopied = true

namespace Graph.Copied

variable {graph later : Graph} {id : CellId} {cell : Cell}

variable (copied : graph.Copied later)
include copied

lemma cell? (found : graph.cell? id = some cell) : later.cell? id = some cell := by
  obtain ⟨copies,rfl,_⟩ := copied
  exact (List.getElem?_append_left (List.getElem?_eq_some_iff.1 found).1).trans found

lemma old (found : later.cell? id = some cell) (other : cell.isCopied = false) : graph.cell? id = some cell := by
  obtain ⟨copies,rfl,containers⟩ := copied
  by_cases low : id < graph.cells.length
  · exact (List.getElem?_append_left low).symm.trans found
  · have copy : copies[id - graph.cells.length]? = some cell :=
      (List.getElem?_append_right (Nat.not_lt.1 low)).symm.trans found
    cases other.symm.trans (containers _ (List.mem_of_getElem? copy))

lemma not_custom (found : later.cell? id = some cell) (contains : cell.isContainer = true) : ¬graph.IsCustom id := by
  rintro ⟨target,fresh,custom⟩
  cases found.symm.trans (copied.cell? custom)
  cases contains

lemma length_le : graph.cells.length ≤ later.cells.length := by
  obtain ⟨copies,rfl,_⟩ := copied
  simp

end Graph.Copied

/-- What a value stands for: itself, what the hook of a custom object leads to, or a copy of that. -/
inductive Graph.Leads (base later : Graph) : Value → Value → Prop
  | here {value : Value} (plain : ∀ id, value = .ref id → ¬base.IsCustom id) : Leads base later value value
  | hook {id : CellId} {target plain : Value} {fresh : Bool} (found : base.cell? id = some (.custom target fresh))
    (shared : fresh = true → ∀ cell, base.cellOf? target = some cell → cell.isCopied = false)
    (rest : Leads base later target plain) : Leads base later (.ref id) plain
  | copy {id copy : CellId} {target : Value} {cell : Cell}
    (found : base.cell? id = some (.custom target true)) (like : later.cellOf? target = some cell)
    (copied : cell.isCopied = true) (new : base.cells.length ≤ copy)
    (there : later.cell? copy = some cell) : Leads base later (.ref id) (.ref copy)

lemma Graph.Leads.plain {base later : Graph} {value plain : Value} (leads : base.Leads later value plain) :
    ∀ id, plain = .ref id → ¬base.IsCustom id := by
  induction leads with
  | here plain => exact plain
  | hook _ _ _ ih => exact ih
  | copy _ _ _ new =>
    rintro _ ⟨rfl⟩ ⟨_,_,custom⟩
    exact Nat.not_lt.2 new (List.getElem?_eq_some_iff.1 custom).1

lemma Graph.Leads.mono {base later last : Graph} {value plain : Value} (leads : base.Leads later value plain)
    (kept : ∀ {id cell}, later.cell? id = some cell → last.cell? id = some cell) :
    base.Leads last value plain := by
  induction leads with
  | here plain => exact .here plain
  | hook found shared _ ih => exact .hook found shared ih
  | @copy _ _ target _ found like copied new there =>
    refine .copy found ?_ copied new (kept there)
    cases target with
    | ref id => exact kept like
    | _ => cases like

lemma Graph.Leads.uncopied {base later : Graph} {value plain : Value} (leads : base.Leads later value plain)
    (other : ∀ id cell, plain = .ref id → later.cell? id = some cell → cell.isCopied = false) :
    base.Leads base value plain := by
  induction leads with
  | here plain => exact .here plain
  | hook found shared _ ih => exact .hook found shared (ih other)
  | copy _ _ copied _ there => cases copied.symm.trans (other _ _ rfl there)

def Graph.Answers (graph : Graph) (a b : CellId) : Prop := ∃ fresh, graph.cell? a = some (.custom (.ref b) fresh)

namespace Payload

def Leaf.slot? : Leaf → Option Nat
  | ref slot => some slot
  | _ => none

namespace Recorder

variable {α β : Type} {base : Graph} {recorder later last middle third : Recorder}
  {pending pending' : Pending} {value plain : Value} {found : Leaf} {id : CellId} {slot fuel : Nat}
  {cell : Cell} {target : Target} {named : ExportName} {head : Head} {failure : Diagnostic}

/-! ### What a recorder takes -/

def withCell (recorder : Recorder) (cell : Cell) : Recorder := { recorder with graph := (recorder.graph.add cell).2 }

lemma cell?_withCell (recorder : Recorder) (cell : Cell) :
    (recorder.withCell cell).graph.cell? recorder.graph.cells.length = some cell := by
  simp [withCell,Graph.add,Graph.cell?]

lemma copied_withCell (copied : base.Copied recorder.graph) (isCopied : cell.isCopied = true) :
    base.Copied (recorder.withCell cell).graph := by
  obtain ⟨copies,equal,containers⟩ := copied
  refine ⟨copies ++ [cell],by simp [withCell,Graph.add,equal],?_⟩
  exact List.forall_mem_append.2 ⟨containers,List.forall_mem_singleton.2 isCopied⟩

def withAdopted (recorder : Recorder) (passed : List CellId) (slot : Nat) : Recorder :=
  { recorder with slots := passed.map (·, slot) ++ recorder.slots }

lemma slot?_withSlot_eq (recorder : Recorder) (id other : CellId) : (recorder.withSlot id).slot? other =
      if id = other then some recorder.nextSlot else recorder.slot? other := by
  by_cases same : id = other <;> simp [withSlot,slot?,same]

lemma slot?_withAdopted (recorder : Recorder) (passed : List CellId) (slot : Nat) (id : CellId) :
    (recorder.withAdopted passed slot).slot? id =
      if id ∈ passed then some slot else recorder.slot? id := by
  induction passed with
  | nil => simp [withAdopted]
  | cons other passed ih =>
    have step : (recorder.withAdopted (other :: passed) slot).slot? id =
        if other = id then some slot else (recorder.withAdopted passed slot).slot? id := by
      by_cases same : other = id <;> simp [withAdopted,slot?,same]
    rw [step,ih]
    by_cases same : other = id
    · simp [same]
    · simp [same,Ne.symm same]

lemma loaderOf_mem (recorder : Recorder) (url : String) :
    ∃ more, (recorder.loaderOf url).2 = recorder.withLoaders more ∧
      ⟨(recorder.loaderOf url).1,url⟩ ∈ recorder.loaders ++ more := by
  simp only [loaderOf]
  split
  · rename_i loader found
    have same : loader.url = url := by simpa using List.find?_some found
    exact ⟨[],by simp [withLoaders],by simpa [← same] using List.mem_of_find?_eq_some found⟩
  · exact ⟨[_],rfl,by simp⟩

/-! ### Steps of a recording -/

lemma ok_of_bind {x : Recording α} {f : α → Recording β} {b : β} (done : (x >>= f) recorder = .ok b last) :
    ∃ a later, x recorder = .ok a later ∧ f a later = .ok b last := by
  change EStateM.bind x f recorder = _ at done
  unfold EStateM.bind at done
  cases first : x recorder with
  | ok a later =>
    rw [first] at done
    exact ⟨a,later,rfl,done⟩
  | error failure later =>
    rw [first] at done
    cases done

lemma replacement_eq (target : Value) (fresh : Bool) (recorder : Recorder) :
    replacement target fresh recorder = match fresh, recorder.graph.cellOf? target with
      | true, some (.array items) => .ok (.ref recorder.graph.cells.length) (recorder.withCell (.array items))
      | true, some (.object maker properties) =>
        .ok (.ref recorder.graph.cells.length) (recorder.withCell (.object maker properties))
      | _, _ => .ok target recorder := by
  simp only [replacement,bind,EStateM.bind,run_get]
  cases fresh with
  | false => rfl
  | true =>
    cases recorder.graph.cellOf? target with
    | none => rfl
    | some cell => cases cell <;> rfl

lemma expand_succ_ref (start : Value) (fuel : Nat) (passed : List CellId) (id : CellId) (recorder : Recorder) :
    expand start (fuel + 1) passed (.ref id) recorder = match recorder.graph.cell? id with
      | some (.custom target fresh) =>
        if passed.contains id then .error (endlessHook (recorder.graph.shown start)) recorder
        else (replacement target fresh >>= expand start fuel (passed ++ [id])) recorder
      | _ => .ok (.ref id, passed) recorder := by
  simp only [expand,bind,EStateM.bind,run_get,Graph.cellOf?]
  cases recorder.graph.cell? id with
  | none => rfl
  | some cell =>
    cases cell with
    | custom target fresh =>
      simp only []
      split_ifs <;> rfl
    | _ => rfl

lemma passed_of_expand {start : Value} {fuel : Nat} {result : Value × List CellId}
    (done : expand start fuel passed value recorder = .ok result later) :
    passed ⊆ result.2 ∧ ∀ id target fresh, value = .ref id →
      recorder.graph.cell? id = some (.custom target fresh) → id ∈ result.2 := by
  induction fuel generalizing passed value recorder with
  | zero => cases done
  | succ fuel ih =>
    cases value with
    | ref id =>
      rw [expand_succ_ref] at done
      split at done
      · rename_i target fresh found
        split_ifs at done
        obtain ⟨next,middle,-,rest⟩ := ok_of_bind done
        have kept := (ih rest).1
        refine ⟨fun other listed => kept (List.mem_append_left _ listed),?_⟩
        rintro _ _ _ ⟨rfl⟩ -
        exact kept (by simp)
      · rename_i other
        cases done
        refine ⟨List.Subset.refl _,?_⟩
        rintro _ target fresh ⟨rfl⟩ found
        exact absurd found (other target fresh)
    | _ =>
      cases done
      exact ⟨List.Subset.refl _,nofun⟩

lemma plainLeaf_ref (id : CellId) (pending : Pending) (recorder : Recorder) :
    plainLeaf (.ref id) pending recorder = match recorder.graph.cell? id with
      | some (.lazy target) => (targetOf target >>= fun target => pure (.lazy target, pending)) recorder
      | some cell =>
        if cell.isContainer then containerLeaf id cell pending recorder
        else .ok (.undefined, pending) recorder
      | none => .ok (.undefined, pending) recorder := by
  simp only [plainLeaf,bind,EStateM.bind,run_get]
  cases recorder.graph.cell? id with
  | none => rfl
  | some cell =>
    cases cell with
    | lazy target => rfl
    | _ => simp only []; split_ifs <;> rfl

lemma leaf_ref (id : CellId) (pending : Pending) (recorder : Recorder) :
    leaf (.ref id) pending recorder = match recorder.graph.cell? id with
      | some (.custom _ _) =>
        match recorder.slot? id with
        | some slot => .ok (.ref slot, pending) recorder
        | none =>
          (expand (.ref id) (recorder.graph.cells.length + 2) [] (.ref id) >>= fun result =>
            plainLeaf result.1 pending >>= fun found => adopt result.2 result.1 >>= fun _ => pure found) recorder
      | _ => plainLeaf (.ref id) pending recorder := by
  simp only [leaf,bind,EStateM.bind,run_get,Graph.cellOf?]
  cases recorder.graph.cell? id with
  | none => rfl
  | some cell =>
    cases cell with
    | custom target fresh =>
      simp only []
      cases recorder.slot? id <;> rfl
    | _ => rfl

lemma adopt_eq (passed : List CellId) (value : Value) (recorder : Recorder) :
    adopt passed value recorder = .ok () (match value with
      | .ref id =>
        match recorder.slot? id with
        | some slot => recorder.withAdopted passed slot
        | none => recorder
      | _ => recorder) := by
  cases value with
  | ref id =>
    refine congrArg (EStateM.Result.ok ()) ?_
    dsimp only
    cases recorder.slot? id <;> rfl
  | _ => rfl

/-! ### What a recording finds in one place -/

/-- What stands for a value that is no custom object: it is shown as it is, or by the slot of a
container, which is made if the container has none. -/
inductive Finds (recorder : Recorder) (pending : Pending) : Value → Leaf → Pending → Recorder → Prop where
  | scalar {value : Value} {leaf : Leaf} (more : List Loader) (plain : leaf.slot? = none)
    (shown : (recorder.withLoaders more).Shows value leaf) :
    Finds recorder pending value leaf pending (recorder.withLoaders more)
  | nothing {id : CellId}
    (missing : ∀ cell, recorder.graph.cell? id = some cell → ∃ target fresh, cell = .custom target fresh) :
    Finds recorder pending (.ref id) .undefined pending recorder
  | known {id : CellId} {slot : Nat} (held : recorder.slot? id = some slot) :
    Finds recorder pending (.ref id) (.ref slot) pending recorder
  | made {id : CellId} {cell : Cell} (more : List Loader) (head : Head)
    (free : recorder.slot? id = none) (found : recorder.graph.cell? id = some cell)
    (contains : cell.isContainer = true) (shown : (recorder.withLoaders more).HeadOf cell head) :
    Finds recorder pending (.ref id) (.ref recorder.nextSlot)
      { allocations := pending.allocations ++ [.allocate recorder.nextSlot head]
        waiting := (recorder.nextSlot, cell) :: pending.waiting }
      ((recorder.withLoaders more).withSlot id)

lemma targetOf_withLoaders {make : Target → α}
    (done : (targetOf named >>= fun target => pure (make target)) recorder = .ok made later) :
    ∃ target more, later = recorder.withLoaders more ∧ later.Offers target named ∧ made = make target := by
  obtain ⟨target,middle,found,rest⟩ := ok_of_bind done
  obtain ⟨more,grown,listed⟩ := loaderOf_mem recorder named.url
  have run : targetOf named recorder =
      .ok ⟨(recorder.loaderOf named.url).1,named.name⟩ (recorder.loaderOf named.url).2 := rfl
  rw [run,grown] at found
  cases found
  cases rest
  exact ⟨_,more,rfl,⟨listed,rfl⟩,rfl⟩

lemma headOf_withLoaders (contains : cell.isContainer = true) (done : headOf cell recorder = .ok head later) :
    ∃ more, later = recorder.withLoaders more ∧ later.HeadOf cell head := by
  have same : recorder = recorder.withLoaders [] := by simp [withLoaders]
  match cell, contains with
  | .object (some maker) properties, _ =>
    obtain ⟨target,more,rfl,offered,rfl⟩ := targetOf_withLoaders done
    exact ⟨more,rfl,.member properties offered⟩
  | .function name (some origin) module, _ =>
    obtain ⟨target,more,rfl,offered,rfl⟩ := targetOf_withLoaders done
    exact ⟨more,rfl,.closure name module offered⟩
  | .array items, _ =>
    cases done
    exact ⟨[],same,.array items⟩
  | .object none properties, _ =>
    cases done
    exact ⟨[],same,.object properties⟩
  | .function _ none _, _ => cases done

lemma containerLeaf_finds (there : recorder.graph.cell? id = some cell) (contains : cell.isContainer = true)
    (done : containerLeaf id cell pending recorder = .ok (found, pending') later) :
    recorder.Finds pending (.ref id) found pending' later := by
  obtain ⟨_,_,⟨rfl⟩,done⟩ := ok_of_bind done
  cases held : recorder.slot? id with
  | some slot =>
    rw [held] at done
    cases done
    exact .known held
  | none =>
    rw [held] at done
    obtain ⟨head,middle,made,rest⟩ := ok_of_bind done
    obtain ⟨more,rfl,shown⟩ := headOf_withLoaders contains made
    cases rest
    exact .made more head held there contains shown

lemma plainLeaf_finds (done : plainLeaf value pending recorder = .ok (found, pending') later) :
    recorder.Finds pending value found pending' later := by
  have scalar {leaf : Leaf} (plain : leaf.slot? = none) (shown : recorder.Shows value leaf) :
      recorder.Finds pending value leaf pending recorder := by
    have same : recorder.withLoaders [] = recorder := by simp [withLoaders]
    have finds : recorder.Finds pending value leaf pending (recorder.withLoaders []) :=
      .scalar [] plain (same.symm ▸ shown)
    rwa [same] at finds
  have reads (x : Number) : x.same x = true := by simp [Number.same]
  cases value with
  | undefined => cases done; exact scalar rfl .undefined
  | null => cases done; exact scalar rfl .null
  | boolean value => cases done; exact scalar rfl (.boolean value)
  | number x => cases done; exact scalar rfl (.number (reads x))
  | string value => cases done; exact scalar rfl (.string value)
  | symbol key => cases done; exact scalar rfl (.symbol key)
  | date x => cases done; exact scalar rfl (.date (reads x))
  | node id => cases done; exact scalar rfl (.node id)
  | ref id =>
    rw [plainLeaf_ref] at done
    split at done
    · rename_i named there
      obtain ⟨target,more,rfl,offered,⟨⟩⟩ := targetOf_withLoaders done
      exact .scalar more rfl (.lazy there offered)
    · rename_i cell notLazy there
      split_ifs at done with contains
      · exact containerLeaf_finds there contains done
      cases done
      refine .nothing fun other same => ?_
      cases there.symm.trans same
      cases cell with
      | custom target fresh => exact ⟨target,fresh,rfl⟩
      | lazy named => exact absurd rfl (notLazy named)
      | _ => exact absurd rfl contains
    · rename_i there
      cases done
      exact .nothing fun cell same => by cases there.symm.trans same

/-- What custom objects lead to. At most the last of them makes a copy, and it leads to that. -/
structure Expands (base : Graph) (recorder : Recorder) (value : Value) (passed : List CellId)
    (plain : Value) (more : List CellId) (later : Recorder) : Prop where
  leads : base.Leads later.graph value plain
  passed : ∃ others, more = passed ++ others ∧
    ∀ id ∈ others, base.IsCustom id ∧ base.Leads later.graph (.ref id) plain ∧
      (value = .ref id ∨ ∃ hook, base.Answers hook id)
  outcome : later = recorder ∨ ∃ cell, cell.isCopied = true ∧ later = recorder.withCell cell ∧
    plain = .ref recorder.graph.cells.length

lemma expand_ok (copied : base.Copied recorder.graph)
    (done : expand start fuel passed value recorder = .ok result later) :
    Expands base recorder value passed result.1 result.2 later := by
  induction fuel generalizing passed value with
  | zero => cases done
  | succ fuel ih =>
    have plain (equal : (value, passed) = result) (same : recorder = later)
        (plain : ∀ id, value = .ref id → ¬base.IsCustom id) :
        Expands base recorder value passed result.1 result.2 later := by
      subst equal same
      exact ⟨.here plain,⟨[],by simp,by simp⟩,.inl rfl⟩
    cases value with
    | ref id =>
      rw [expand_succ_ref] at done
      split at done
      · rename_i target fresh there
        have custom := copied.old there rfl
        split_ifs at done
        obtain ⟨next,middle,replaced,rest⟩ := ok_of_bind done
        have copy {cell : Cell} (isCopied : cell.isCopied = true) (isFresh : fresh = true)
            (like : recorder.graph.cellOf? target = some cell) (same : recorder.withCell cell = middle)
            (made : Value.ref recorder.graph.cells.length = next) :
            Expands base recorder (.ref id) passed result.1 result.2 later := by
          subst same made isFresh
          have there := cell?_withCell recorder cell
          have still : (recorder.withCell cell).graph.cellOf? target = some cell := by
            cases target with
            | ref other => exact (List.getElem?_append_left (List.getElem?_eq_some_iff.1 like).1).trans like
            | _ => cases like
          have leads := Graph.Leads.copy custom still isCopied copied.length_le there
          cases fuel with
          | zero => cases rest
          | succ fuel =>
            rw [expand_succ_ref,there] at rest
            cases cell with
            | lazy | custom | function => cases isCopied
            | _ =>
              cases rest
              exact ⟨leads,⟨[id],rfl,by simpa using ⟨⟨_,_,custom⟩,leads⟩⟩, .inr ⟨_,rfl,rfl,rfl⟩⟩
        rw [replacement_eq] at replaced
        split at replaced
        · rename_i like
          cases replaced
          exact copy rfl rfl like rfl rfl
        · rename_i like
          cases replaced
          exact copy rfl rfl like rfl rfl
        · rename_i noArray noObject
          cases replaced
          obtain ⟨leads,⟨others,listed,customs⟩,outcome⟩ := ih rest
          have leads : base.Leads later.graph (.ref id) result.1 := by
            refine .hook custom (fun isFresh cell there => ?_) leads
            cases target with
            | ref other =>
              have now : recorder.graph.cellOf? (.ref other) = some cell := copied.cell? there
              cases cell with
              | array items => exact (noArray items isFresh now).elim
              | object maker properties => exact (noObject maker properties isFresh now).elim
              | _ => rfl
            | _ => cases there
          refine ⟨leads,⟨id :: others,by simpa using listed,?_⟩,outcome⟩
          refine List.forall_mem_cons.2 ⟨⟨⟨_,_,custom⟩,leads,.inl rfl⟩,fun other member => ?_⟩
          obtain ⟨isCustom,leads,answered⟩ := customs other member
          exact ⟨isCustom,leads,.inr (answered.elim (fun same => ⟨id,_,same ▸ custom⟩) fun found => found)⟩
      · rename_i other
        injection done with equal same
        refine plain equal same ?_
        rintro _ ⟨rfl⟩ ⟨target,fresh,custom⟩
        exact other target fresh (copied.cell? custom)
    | _ =>
      injection done with equal same
      exact plain equal same nofun

namespace Finds

section
variable (finds : recorder.Finds pending value found pending' later)
include finds

lemma kept (missing : later.slot? id = none) : recorder.slot? id = none := by
  cases finds with
  | scalar => exact missing
  | nothing => exact missing
  | known => exact missing
  | made more =>
    rw [slot?_withSlot_eq] at missing
    split_ifs at missing
    exact missing

lemma cells_eq : later.graph.cells = recorder.graph.cells := by
  cases finds <;> rfl

end

lemma slot_of_container (finds : recorder.Finds pending (.ref id) found pending' later)
    (there : recorder.graph.cell? id = some cell) (contains : cell.isContainer = true) :
    ∃ slot, found = .ref slot ∧ later.slot? id = some slot := by
  cases finds with
  | scalar more plain shown =>
    cases shown with
    | lazy isLazy =>
      cases isLazy.symm.trans there
      cases contains
    | container => cases plain
  | nothing missing =>
    obtain ⟨target,fresh,rfl⟩ := missing cell there
    cases contains
  | known held => exact ⟨_,rfl,held⟩
  | made => exact ⟨_,rfl,slot?_withSlot ..⟩

section
variable (finds : recorder.Finds pending value found pending' later)
include finds

lemma container_of_slot (shared : found.slot? = some slot) : ∃ id, value = .ref id ∧ later.slot? id = some slot := by
  cases finds with
  | scalar more plain => cases plain.symm.trans shared
  | nothing => cases shared
  | known held => exact ⟨_,rfl,held.trans shared⟩
  | made => exact ⟨_,rfl,(slot?_withSlot ..).trans shared⟩

lemma free (other : value ≠ .ref id) (free : recorder.slot? id = none) : later.slot? id = none := by
  cases finds with
  | scalar | nothing | known => exact free
  | made more =>
    rw [slot?_withSlot_eq,if_neg (by rintro rfl; exact other rfl)]
    exact free

end

end Finds

lemma adopt_ok (done : adopt passed value recorder = .ok result later) :
    (later = recorder ∧ ∀ id, value = .ref id → recorder.slot? id = none) ∨
      ∃ id slot, value = .ref id ∧ recorder.slot? id = some slot ∧ later = recorder.withAdopted passed slot := by
  rw [adopt_eq] at done
  injection done with _ left
  split at left
  · rename_i id
    split at left
    · rename_i slot held
      exact .inr ⟨id,slot,rfl,held,left.symm⟩
    · rename_i free
      refine .inl ⟨left.symm,?_⟩
      rintro _ ⟨rfl⟩
      exact free
  · rename_i other
    exact .inl ⟨left.symm,fun id equal => absurd equal (other id)⟩

/-! ### How many slots there are -/

def free (recorder : Recorder) (count : Nat) : Finset Nat :=
  (Finset.range count).filter fun id => recorder.slot? id = none

/-- Each slot is paid for with a cell of the first graph that has none yet, so there are no more slots
than cells; a copy has its slot as soon as it is made. -/
structure Paid (base : Graph) (recorder : Recorder) : Prop where
  copies : ∀ id, base.cells.length ≤ id → id < recorder.graph.cells.length → recorder.slot? id ≠ none
  few : recorder.nextSlot + (recorder.free base.cells.length).card ≤ base.cells.length

namespace Paid

lemma step (paid : Paid base recorder) (kept : ∀ id, later.slot? id = none → recorder.slot? id = none)
    (copies : ∀ id, recorder.graph.cells.length ≤ id → id < later.graph.cells.length → later.slot? id ≠ none)
    (next : later.nextSlot = recorder.nextSlot ∨ later.nextSlot = recorder.nextSlot + 1 ∧
      ∃ id < base.cells.length, recorder.slot? id = none ∧ later.slot? id ≠ none) :
    Paid base later := by
  have fewer : later.free base.cells.length ⊆ recorder.free base.cells.length := by
    intro id member
    rw [free,Finset.mem_filter] at member ⊢
    exact ⟨member.1,kept id member.2⟩
  refine ⟨fun id high low missing => ?_,?_⟩
  · by_cases old : id < recorder.graph.cells.length
    · exact paid.copies id high old (kept id missing)
    · exact copies id (Nat.not_lt.1 old) low missing
  · have before := paid.few
    rcases next with same | ⟨one,id,low,free_,now⟩
    · have := Finset.card_le_card fewer
      omega
    · have member : id ∈ recorder.free base.cells.length := Finset.mem_filter.2 ⟨Finset.mem_range.2 low,free_⟩
      have gone : id ∉ later.free base.cells.length := fun still => now (Finset.mem_filter.1 still).2
      have := Finset.card_lt_card (Finset.ssubset_iff_of_subset fewer |>.mpr ⟨id,member,gone⟩)
      omega

lemma finds (paid : Paid base recorder)
    (finds : recorder.Finds pending value found pending' later) : Paid base later := by
  have none {id : CellId} (low : id < recorder.graph.cells.length)
      (high : recorder.graph.cells.length ≤ id) : False := Nat.not_lt.2 high low
  cases finds with
  | scalar more => exact paid.step (fun _ missing => missing) (fun _ high low => (none low high).elim) (.inl rfl)
  | nothing => exact paid
  | known => exact paid
  | @made id cell more head free there =>
    have slots := slot?_withSlot_eq (recorder.withLoaders more) id
    refine paid.step (fun other missing => ?_) (fun _ high low => (none low high).elim) (.inr ⟨rfl,id,?_,free,?_⟩)
    · rw [slots] at missing
      split_ifs at missing
      exact missing
    · by_contra high
      exact paid.copies id (Nat.not_lt.1 high) (List.getElem?_eq_some_iff.1 there).1 free
    · simp [slots]

end Paid

/-- What stands for any value. A custom object that has no slot is followed, and what is found there is
shared by all that were passed. -/
inductive Finding (base : Graph) (recorder : Recorder) (pending : Pending) :
    Value → Leaf → Pending → Recorder → Prop where
  | plain {value : Value} {found : Leaf} {pending' : Pending} {later : Recorder}
    (plain : ∀ id, value = .ref id → ¬base.IsCustom id)
    (finds : recorder.Finds pending value found pending' later) :
    Finding base recorder pending value found pending' later
  | known {id : CellId} {slot : Nat} (custom : base.IsCustom id) (held : recorder.slot? id = some slot) :
    Finding base recorder pending (.ref id) (.ref slot) pending recorder
  | custom {id : CellId} {plain : Value} {passed : List CellId} {found : Leaf} {pending' : Pending}
    {middle third later : Recorder} (custom : base.IsCustom id) (free : recorder.slot? id = none)
    (listed : id ∈ passed) (expands : Expands base recorder (.ref id) [] plain passed middle)
    (finds : middle.Finds pending plain found pending' third)
    (adopted : adopt passed plain third = .ok () later) :
    Finding base recorder pending (.ref id) found pending' later

lemma leaf_finding (copied : base.Copied recorder.graph)
    (done : leaf value pending recorder = .ok (found, pending') later) :
    Finding base recorder pending value found pending' later := by
  cases value with
  | ref id =>
    rw [leaf_ref] at done
    split at done
    · rename_i target fresh there
      have custom : base.IsCustom id := ⟨target,fresh,copied.old there rfl⟩
      split at done
      · rename_i slot held
        cases done
        exact .known custom held
      · rename_i free
        obtain ⟨⟨plain,passed⟩,middle,expanded,rest⟩ := ok_of_bind done
        obtain ⟨_,third,finds,rest⟩ := ok_of_bind rest
        obtain ⟨_,last,adopted,rest⟩ := ok_of_bind rest
        cases rest
        exact .custom custom free ((passed_of_expand expanded).2 id target fresh rfl there)
          (expand_ok copied expanded) (plainLeaf_finds finds) adopted
    · rename_i other
      refine .plain ?_ (plainLeaf_finds done)
      rintro _ ⟨rfl⟩ ⟨target,fresh,there⟩
      exact other target fresh (copied.cell? there)
  | _ => exact .plain nofun (plainLeaf_finds done)

lemma Paid.finding (paid : Paid base recorder)
    (finding : Finding base recorder pending value found pending' later) : Paid base later := by
  cases finding with
  | plain _ finds => exact paid.finds finds
  | known => exact paid
  | @custom id plain passed found pending' middle third later custom free listed expands finds adopted =>
    obtain ⟨-,-,expanded⟩ := expands
    obtain ⟨nextSlot,slots⟩ : middle.nextSlot = recorder.nextSlot ∧
        ∀ other, middle.slot? other = recorder.slot? other := by
      rcases expanded with rfl | ⟨cell,-,rfl,-⟩ <;> exact ⟨rfl,fun _ => rfl⟩
    -- a copy that was made for this custom object is what it leads to, so it has a slot now
    have copies : ∀ other, recorder.graph.cells.length ≤ other → other < third.graph.cells.length →
        third.slot? other ≠ none := by
      intro other high low
      rw [finds.cells_eq] at low
      rcases expanded with rfl | ⟨cell,isCopied,rfl,rfl⟩
      · exact absurd low (Nat.not_lt.2 high)
      have last : other = recorder.graph.cells.length := by
        simp only [withCell,Graph.add,List.length_append,List.length_singleton] at low
        omega
      obtain ⟨slot,-,held⟩ := finds.slot_of_container (cell?_withCell recorder cell)
        (Cell.isContainer_of_isCopied isCopied)
      simp [last,held]
    have kept : ∀ other, third.slot? other = none → recorder.slot? other = none := fun other missing =>
      slots other ▸ finds.kept missing
    have low : id < base.cells.length := by
      obtain ⟨target,fresh,there⟩ := custom
      exact (List.getElem?_eq_some_iff.1 there).1
    rcases adopt_ok adopted with ⟨rfl,without⟩ | ⟨other,slot,rfl,held,rfl⟩
    · refine paid.step kept copies (.inl ?_)
      cases finds with
      | made => simp [slot?_withSlot] at without
      | _ => exact nextSlot
    · have adopted := slot?_withAdopted third passed slot
      refine paid.step (fun third missing => ?_) (fun third high low missing => ?_) ?_
      · rw [adopted] at missing
        split_ifs at missing
        exact kept third missing
      · rw [adopted] at missing
        split_ifs at missing
        exact copies third high low missing
      · cases finds with
        | made => exact .inr ⟨congrArg (· + 1) nextSlot,id,low,free,by simp [adopted,listed]⟩
        | _ => exact .inl nextSlot

lemma paid_start (graph : Graph) : Paid graph { graph } := by
  refine ⟨fun id high low => absurd low (Nat.not_lt.2 high),?_⟩
  refine (Nat.zero_add _).trans_le ((Finset.card_filter_le _ _).trans ?_)
  exact (Finset.card_range _).le

/-! ### Where nothing is found -/

lemma error_of_bind {x : Recording α} {f : α → Recording β}
    (failed : (x >>= f) recorder = .error failure last) : x recorder = .error failure last ∨
      ∃ a later, x recorder = .ok a later ∧ f a later = .error failure last := by
  change EStateM.bind x f recorder = _ at failed
  unfold EStateM.bind at failed
  cases first : x recorder with
  | ok a later =>
    rw [first] at failed
    exact .inr ⟨a,later,rfl,failed⟩
  | error failure later =>
    rw [first] at failed
    cases failed
    exact .inl rfl

lemma plainLeaf_error (failed : plainLeaf value pending recorder = .error failure later) :
    later = recorder ∧ ∃ id name module, value = .ref id ∧
      recorder.graph.cell? id = some (.function name none module) := by
  cases value with
  | ref id =>
    rw [plainLeaf_ref] at failed
    split at failed
    · cases failed
    · rename_i cell _ there
      split_ifs at failed
      cases held : recorder.slot? id with
      | some slot =>
        simp only [containerLeaf,bind,EStateM.bind,run_get,held] at failed
        cases failed
      | none =>
        simp only [containerLeaf,get,getThe,MonadStateOf.get] at failed
        rcases error_of_bind failed with none | ⟨_,_,⟨rfl⟩,failed⟩
        · cases none
        rw [held] at failed
        rcases error_of_bind failed with failed | ⟨_,_,_,failed⟩
        · cases cell with
          | function name origin module =>
            cases origin with
            | none =>
              cases failed
              exact ⟨rfl,id,name,module,rfl,there⟩
            | some origin => cases failed
          | object maker properties => cases maker <;> cases failed
          | _ => cases failed
        · cases failed
    · cases failed
  | _ => cases failed

lemma length_le_of_inside {count : Nat} (once : passed.Nodup) (inside : ∀ id ∈ passed, id < count) :
    passed.length ≤ count := by
  simpa using once.length_le_of_subset fun id listed => List.mem_range.2 (inside id listed)

/-- A custom object is passed once at most, so hooks lead on until they lead back. Before that none of them
has made a copy, for a copy is no custom object. -/
lemma expand_error {start : Value} (copied : base.Copied recorder.graph) (once : passed.Nodup)
    (inside : ∀ hook ∈ passed, hook < base.cells.length)
    (enough : base.cells.length < fuel + passed.length)
    (failed : expand start fuel passed value recorder = .error failure later) : later = recorder := by
  induction fuel generalizing passed value with
  | zero =>
    have few := length_le_of_inside once inside
    omega
  | succ fuel ih =>
    cases value with
    | ref id =>
      rw [expand_succ_ref] at failed
      split at failed
      · rename_i target fresh there
        split_ifs at failed with again
        · cases failed
          rfl
        have onceMore : (passed ++ [id]).Nodup := by simpa using once.concat (mt List.contains_iff_mem.2 again)
        have insideMore : ∀ hook ∈ passed ++ [id], hook < base.cells.length := List.forall_mem_append.2
          ⟨inside,List.forall_mem_singleton.2 (List.getElem?_eq_some_iff.1 (copied.old there rfl)).1⟩
        have longer : (passed ++ [id]).length = passed.length + 1 := List.length_append
        have few := length_le_of_inside onceMore insideMore
        rcases error_of_bind failed with none | ⟨next,middle,replaced,failed⟩
        · rw [replacement_eq] at none
          split at none <;> cases none
        obtain ⟨fuel,rfl⟩ : ∃ more, fuel = more + 1 := Nat.exists_eq_add_one.2 (by omega)
        have copy {cell : Cell} (isCopied : cell.isCopied = true)
            (failed : expand start (fuel + 1) (passed ++ [id]) (.ref recorder.graph.cells.length)
              (recorder.withCell cell) = .error failure later) : False := by
          rw [expand_succ_ref,cell?_withCell] at failed
          cases cell with
          | lazy | custom | function => cases isCopied
          | _ => cases failed
        rw [replacement_eq] at replaced
        split at replaced
        · cases replaced
          exact (copy rfl failed).elim
        · cases replaced
          exact (copy rfl failed).elim
        · cases replaced
          exact ih onceMore insideMore (by omega) failed
      · cases failed
    | _ => cases failed

lemma leaf_error (copied : base.Copied recorder.graph)
    (failed : leaf value pending recorder = .error failure later) : later = recorder := by
  cases value with
  | ref id =>
    rw [leaf_ref] at failed
    split at failed
    · split at failed
      · cases failed
      rcases error_of_bind failed with failed | ⟨⟨plain,passed⟩,middle,expanded,rest⟩
      · have long := copied.length_le
        exact expand_error copied List.nodup_nil nofun (by simp only [List.length_nil]; omega) failed
      rcases error_of_bind rest with failed | ⟨_,_,_,rest⟩
      · obtain ⟨rfl,other,name,module,rfl,function⟩ := plainLeaf_error failed
        rcases (expand_ok copied expanded).outcome with rfl | ⟨cell,isCopied,rfl,⟨rfl⟩⟩
        · rfl
        · cases (cell?_withCell recorder cell).symm.trans function
          cases isCopied
      · rcases error_of_bind rest with failed | ⟨_,_,_,rest⟩
        · rw [adopt_eq] at failed
          cases failed
        · cases rest
    · exact (plainLeaf_error failed).1
  | _ => cases failed

def after : EStateM.Result Diagnostic Recorder α → Recorder
  | .ok _ recorder => recorder
  | .error _ recorder => recorder

lemma Paid.leaf (paid : Paid base recorder) (copied : base.Copied recorder.graph) (value : Value)
    (pending : Pending) : Paid base (after (leaf value pending recorder)) := by
  cases done : Payload.leaf value pending recorder with
  | ok found later => exact paid.finding (leaf_finding copied done)
  | error failure later => exact leaf_error copied done ▸ paid

/-! ### What whole recordings keep -/

/-- All of a recording but its last step, which adds what was found to the payload. -/
def findAll (value : Value) : Recording (Leaf × List Entry × List Entry) := do
  let cells := (← get).graph.cells.length
  let (root, pending) ← leaf value {}
  let written ← fillAll (cells + 2) pending []
  return (root, written)

def withWritten (recorder : Recorder) (found : Leaf × List Entry × List Entry) : Recorder :=
  { recorder with
    definitions := recorder.definitions ++ found.2.1 ++ found.2.2
    expressions := recorder.expressions ++ [found.1] }

lemma record_eq (recorder : Recorder) (value : Value) : recorder.record value = match findAll value recorder with
      | .ok found later => (.ok (), later.withWritten found)
      | .error failure later => (.error failure, later) := by
  simp only [Recorder.record,Payload.record,EStateM.run,findAll,bind,EStateM.bind,run_get]
  cases leaf value {} recorder with
  | error failure later => rfl
  | ok found later =>
    simp only []
    cases fillAll (recorder.graph.cells.length + 2) found.2 [] later <;> rfl

end Recorder
end Payload

end Resumable
