import Resumable.Proofs.Parallel

/-! Slots of a payload. A recording numbers its slots as it allocates them, fills each of them once, and writes one
expression for each value. A custom object shares the slot of what it stands for; every other container has a slot
of its own. -/
namespace Resumable
open List
variable {passed : List CellId} {values : List Value} {leaves : List Leaf} {fills : List Entry} {slots : List Nat}

/-- A value that is there and is no custom object. -/
def Graph.IsPlain (graph : Graph) (value : Value) : Prop :=
  ∀ id, value = .ref id → (∃ cell, graph.cell? id = some cell) ∧ ¬graph.IsCustom id

/-- All but a custom object that some hook answers with. -/
def Graph.IsFirm (graph : Graph) (id : CellId) : Prop := graph.IsCustom id → ∀ hook, ¬graph.Answers hook id

namespace Payload

def Entry.filled? : Entry → Option Nat
  | fill slot _ => some slot
  | _ => none

def Body.of (cell : Cell) (leaves : List Leaf) : Body :=
  match cell with
  | .array _ => .elements leaves
  | .function _ _ _ => .captured leaves
  | .object _ fields => .properties ((fields.map (·.1)).zip leaves)
  | _ => .properties []

lemma Body.leaves_of_subset (cell : Cell) (leaves : List Leaf) : (Body.of cell leaves).leaves ⊆ leaves := by
  cases cell with
  | array items => exact List.Subset.refl _
  | function name origin module => exact List.Subset.refl _
  | object maker fields =>
    intro leaf member
    obtain ⟨⟨key,_⟩,listed,rfl⟩ := mem_map.1 member
    exact (of_mem_zip listed).2
  | lazy target => exact nil_subset _
  | custom target fresh => exact nil_subset _

namespace Recorder

variable {base : Graph} {recorder later last : Recorder} {pending pending' : Pending} {filled : List Nat}
  {value : Value} {found : Leaf} {id : CellId} {slot fuel : Nat} {cell : Cell} {target : Target}
  {named : ExportName} {head : Head} {body : Body}

/-- A leaf in the place of a value: it mentions taken slots only, and it shows the value unless that is
a custom object. -/
structure Stands (base : Graph) (recorder : Recorder) (value : Value) (leaf : Leaf) : Prop where
  taken : ∀ slot ∈ leaf.slot?, slot < recorder.nextSlot
  shown : base.IsPlain value → recorder.Shows value leaf

def Contains (base : Graph) (recorder : Recorder) (slot : Nat) (cell : Cell) : Prop :=
  ∃ id, ¬base.IsCustom id ∧ recorder.slot? id = some slot ∧ recorder.graph.cell? id = some cell

/-- A leaf for what a value stands for. A reference to nothing is undefined. -/
inductive Describes (base : Graph) (recorder : Recorder) (value : Value) : Leaf → Prop
  | shows {plain : Value} {leaf : Leaf} (leads : base.Leads recorder.graph value plain)
    (shown : recorder.Shows plain leaf) : Describes base recorder value leaf
  | missing {id : CellId} (leads : base.Leads recorder.graph value (.ref id))
    (none : base.cell? id = none) : Describes base recorder value .undefined

/-- An entry that makes the container of its slot, or fills it with what stands for its parts. -/
inductive Defines (base : Graph) (recorder : Recorder) : Entry → Prop
  | makes {slot : Nat} {cell : Cell} {head : Head} (contains : recorder.Contains base slot cell)
    (shown : recorder.HeadOf cell head) : Defines base recorder (.allocate slot head)
  | fills {slot : Nat} {cell : Cell} {leaves : List Leaf} (contains : recorder.Contains base slot cell)
    (described : cell.parts.Forall₂ (recorder.Describes base) leaves) :
    Defines base recorder (.fill slot (Body.of cell leaves))

/-- A leaf that holds on to the slot of a firm custom object, and has none only where no container is. -/
structure Notes (base : Graph) (recorder : Recorder) (value : Value) (leaf : Leaf) : Prop where
  describes : recorder.Describes base value leaf
  kept : ∀ {id slot}, value = .ref id → base.IsCustom id → base.IsFirm id → leaf.slot? = some slot →
    recorder.slot? id = some slot
  bare : leaf.slot? = none → ∃ plain, base.Leads base value plain ∧
    ∀ id cell, plain = .ref id → base.cell? id = some cell → cell.isContainer = false

/-- Something that holds of what is written for each value, and for each part of a container. -/
structure Writes (base : Graph) (recorder : Recorder) (values : List Value) (holds : Value → Leaf → Prop) :
    Prop where
  roots : values.Forall₂ holds recorder.expressions
  parts : ∀ slot body, .fill slot body ∈ recorder.definitions → ∃ cell leaves,
    recorder.Contains base slot cell ∧ body = Body.of cell leaves ∧ cell.parts.Forall₂ holds leaves

lemma Describes.stands (describes : recorder.Describes base value found)
    (taken : ∀ {id slot}, recorder.slot? id = some slot → slot < recorder.nextSlot) :
    recorder.Stands base value found := by
  cases describes with
  | shows leads shown =>
    refine ⟨fun slot used => ?_,fun plain => ?_⟩
    · cases shown with
      | container held =>
        cases used
        exact taken held
      | _ => cases used
    · cases leads with
      | here => exact shown
      | hook custom | copy custom => exact absurd ⟨_,_,custom⟩ (plain _ rfl).2
  | missing leads none =>
    refine ⟨by simp [Leaf.slot?],fun plain => ?_⟩
    cases leads with
    | here =>
      obtain ⟨⟨cell,there⟩,-⟩ := plain _ rfl
      cases none.symm.trans there
    | hook custom | copy custom => exact absurd ⟨_,_,custom⟩ (plain _ rfl).2

/-- What is known of a recorder, and stays known when more is recorded. -/
structure Retains (base : Graph) (recorder later : Recorder) : Prop where
  graph : ∃ more, later.graph = { recorder.graph with cells := recorder.graph.cells ++ more }
  loaders : recorder.loaders ⊆ later.loaders
  slots : ∀ {id slot}, base.IsFirm id → recorder.slot? id = some slot → later.slot? id = some slot

namespace Retains

variable (retains : Retains base recorder later)
include retains

lemma cell? (found : recorder.graph.cell? id = some cell) : later.graph.cell? id = some cell := by
  obtain ⟨more,grown⟩ := retains.graph
  rw [grown]
  exact (List.getElem?_append_left (List.getElem?_eq_some_iff.1 found).1).trans found

lemma offers (offered : recorder.Offers target named) :
    later.Offers target named := ⟨retains.loaders offered.1,offered.2⟩

lemma shows (plain : ∀ id, value = .ref id → ¬base.IsCustom id) (shown : recorder.Shows value found) :
    later.Shows value found := by
  cases shown with
  | node id =>
    obtain ⟨more,grown⟩ := retains.graph
    have same : later.graph.document = recorder.graph.document := by rw [grown]
    exact same ▸ .node id
  | lazy found offered => exact .lazy (retains.cell? found) (retains.offers offered)
  | container held => exact .container (retains.slots (fun custom => absurd custom (plain _ rfl)) held)
  | number same => exact .number same
  | date same => exact .date same
  | _ => constructor

lemma describes (describes : recorder.Describes base value found) : later.Describes base value found := by
  cases describes with
  | shows leads shown => exact .shows (leads.mono retains.cell?) (retains.shows leads.plain shown)
  | missing leads none => exact .missing (leads.mono retains.cell?) none

lemma notes (notes : recorder.Notes base value found) : later.Notes base value found :=
  ⟨retains.describes notes.describes,fun same custom firm used =>
    retains.slots firm (notes.kept same custom firm used),notes.bare⟩

lemma contains (contains : recorder.Contains base slot cell) : later.Contains base slot cell := by
  obtain ⟨id,plain,held,found⟩ := contains
  exact ⟨id,plain,retains.slots (fun custom => absurd custom plain) held,retains.cell? found⟩

lemma headOf (shown : recorder.HeadOf cell head) : later.HeadOf cell head := by
  cases shown with
  | array items => exact .array items
  | object properties => exact .object properties
  | member properties offered => exact .member properties (retains.offers offered)
  | closure name module offered => exact .closure name module (retains.offers offered)

lemma defines (defines : recorder.Defines base entry) : later.Defines base entry := by
  cases defines with
  | makes contains shown => exact .makes (retains.contains contains) (retains.headOf shown)
  | fills contains described => exact .fills (retains.contains contains) (described.imp fun _ _ => retains.describes)

end Retains

/-- What a recording adds, if it keeps the slots of all that is firm. -/
structure Keeps (base : Graph) (recorder later : Recorder) : Prop extends Extends recorder later where
  slots : ∀ {id slot}, base.IsFirm id → recorder.slot? id = some slot → later.slot? id = some slot

lemma Keeps.refl (base : Graph) (recorder : Recorder) : Keeps base recorder recorder :=
  ⟨.refl recorder,fun _ held => held⟩

lemma Keeps.trans (first : Keeps base recorder later) (second : Keeps base later last) : Keeps base recorder last :=
  ⟨first.toExtends.trans second.toExtends,fun plain held => second.slots plain (first.slots plain held)⟩

lemma Keeps.retains (keeps : Keeps base recorder later) : Retains base recorder later :=
  ⟨keeps.graph,keeps.loaders,keeps.slots⟩

/-! ### What one place keeps -/

/-- The slots of a recording that is under way: they are numbered as they are allocated, each has been
taken up for filling or waits for it, and no two containers have the same one. -/
structure Slotted (base : Graph) (recorder : Recorder) (pending : Pending) (filled : List Nat) :
    Prop where
  copied : base.Copied recorder.graph
  taken : ∀ {id slot}, recorder.slot? id = some slot → slot < recorder.nextSlot
  apart : ∀ {a b slot}, ¬base.IsCustom a → ¬base.IsCustom b → recorder.slot? a = some slot →
    recorder.slot? b = some slot → a = b
  heads : ∀ entry ∈ pending.allocations, ∃ slot head, entry = .allocate slot head ∧ recorder.Defines base entry
  adopted : ∀ {id slot}, base.IsCustom id → recorder.slot? id = some slot →
    recorder.Describes base (.ref id) (.ref slot)
  allocated : (recorder.definitions ++ pending.allocations).filterMap Entry.allocated? = List.range recorder.nextSlot
  waiting : ∀ entry ∈ pending.waiting, recorder.Contains base entry.1 entry.2
  numbered : (filled ++ pending.waiting.map Prod.fst).Perm (List.range recorder.nextSlot)

structure Places (base : Graph) (filled : List Nat) (recorder : Recorder) (value : Value)
    (found : Leaf) (pending : Pending) (later : Recorder) : Prop where
  slotted : Slotted base later pending filled
  keeps : Keeps base recorder later
  notes : later.Notes base value found

lemma keeps_withLoaders (base : Graph) (recorder : Recorder) (more : List Loader) :
    Keeps base recorder (recorder.withLoaders more) :=
  ⟨extends_withLoaders recorder more,fun _ held => held⟩

lemma keeps_withCell (base : Graph) (recorder : Recorder) (cell : Cell) :
    Keeps base recorder (recorder.withCell cell) :=
  ⟨extends_withCell recorder cell,fun _ held => held⟩

lemma keeps_withSlot (base : Graph) (free : recorder.slot? id = none) : Keeps base recorder (recorder.withSlot id) :=
  ⟨extends_withSlot recorder id,fun {other slot} _ held => by
    rw [slot?_withSlot_eq,if_neg (by rintro rfl; cases free.symm.trans held),held]⟩

lemma keeps_withAdopted (recorder : Recorder) (slot : Nat)
    (customs : ∀ id ∈ passed, base.IsCustom id ∧ (recorder.slot? id = none ∨ ∃ hook, base.Answers hook id)) :
    Keeps base recorder (recorder.withAdopted passed slot) := by
  refine ⟨extends_withAdopted recorder passed slot,fun {id slot} firm held => ?_⟩
  rw [slot?_withAdopted,if_neg fun listed => ?_,held]
  obtain ⟨custom,free | ⟨hook,answers⟩⟩ := customs id listed
  · cases free.symm.trans held
  · exact firm custom hook answers

namespace Slotted

section
variable (slotted : Slotted base recorder pending filled)
include slotted

lemma of_same (copied : base.Copied later.graph) (keeps : Keeps base recorder later)
    (slots : later.slots = recorder.slots) (next : later.nextSlot = recorder.nextSlot) :
    Slotted base later pending filled := by
  have same : ∀ id, later.slot? id = recorder.slot? id := fun id => by rw [slot?,slot?,slots]
  constructor
  · exact copied
  · intro id slot held
    exact next ▸ slotted.taken (same id ▸ held)
  · intro a b slot plainA plainB heldA heldB
    exact slotted.apart plainA plainB (same a ▸ heldA) (same b ▸ heldB)
  · intro entry member
    obtain ⟨slot,head,equal,defines⟩ := slotted.heads entry member
    exact ⟨slot,head,equal,keeps.retains.defines defines⟩
  · intro id slot custom held
    exact keeps.retains.describes (slotted.adopted custom (same id ▸ held))
  · rw [keeps.definitions,next]
    exact slotted.allocated
  · exact fun entry member => keeps.retains.contains (slotted.waiting entry member)
  · rw [next]
    exact slotted.numbered

lemma withLoaders (more : List Loader) : Slotted base (recorder.withLoaders more) pending filled :=
  slotted.of_same slotted.copied (keeps_withLoaders base recorder more) rfl rfl

lemma withCell (isCopied : cell.isCopied = true) : Slotted base (recorder.withCell cell) pending filled :=
  slotted.of_same (copied_withCell slotted.copied isCopied) (keeps_withCell base recorder cell) rfl rfl

lemma withSlot (free : recorder.slot? id = none) (found : recorder.graph.cell? id = some cell)
    (contains : cell.isContainer = true) (shown : recorder.HeadOf cell head) :
    Slotted base (recorder.withSlot id)
      { allocations := pending.allocations ++ [.allocate recorder.nextSlot head]
        waiting := (recorder.nextSlot, cell) :: pending.waiting } filled := by
  have retains := (keeps_withSlot base free).retains
  have slots := slot?_withSlot_eq recorder id
  have own : (recorder.withSlot id).Contains base recorder.nextSlot cell :=
    ⟨id,slotted.copied.not_custom found contains,slot?_withSlot recorder id,found⟩
  constructor
  · exact slotted.copied
  · intro other slot held
    rw [slots] at held
    split_ifs at held
    · cases held
      exact Nat.lt_succ_self _
    · exact Nat.lt_succ_of_lt (slotted.taken held)
  · intro a b slot plainA plainB heldA heldB
    -- the next slot is taken by nothing else
    have fresh {other : CellId} (held : recorder.slot? other = some recorder.nextSlot) : False :=
      Nat.lt_irrefl _ (slotted.taken held)
    rw [slots] at heldA heldB
    split_ifs at heldA heldB with isA isB isB
    · exact isA.symm.trans isB
    · cases heldA
      exact absurd heldB fresh
    · cases heldB
      exact absurd heldA fresh
    · exact slotted.apart plainA plainB heldA heldB
  · intro entry member
    rcases mem_append.1 member with old | new
    · obtain ⟨slot,head,equal,defines⟩ := slotted.heads entry old
      exact ⟨slot,head,equal,retains.defines defines⟩
    · obtain rfl := mem_singleton.1 new
      exact ⟨_,_,rfl,.makes own (retains.headOf shown)⟩
  · intro other slot custom held
    rw [slots] at held
    split_ifs at held with same
    · exact absurd (same ▸ custom) (slotted.copied.not_custom found contains)
    · exact retains.describes (slotted.adopted custom held)
  · change (recorder.definitions ++ (pending.allocations ++ [Entry.allocate recorder.nextSlot head])).filterMap
      Entry.allocated? = List.range (recorder.nextSlot + 1)
    rw [← append_assoc,filterMap_append,slotted.allocated,range_succ]
    rfl
  · intro entry member
    rcases mem_cons.1 member with rfl | old
    · exact own
    · exact retains.contains (slotted.waiting entry old)
  · change (filled ++ recorder.nextSlot :: pending.waiting.map Prod.fst).Perm (List.range (recorder.nextSlot + 1))
    rw [range_succ]
    exact (perm_middle.trans (perm_append_singleton _ _).symm).trans (slotted.numbered.append_right _)

lemma withAdopted
    (customs : ∀ id ∈ passed, base.IsCustom id ∧ (recorder.slot? id = none ∨ ∃ hook, base.Answers hook id))
    (taken : slot < recorder.nextSlot)
    (described : ∀ id ∈ passed, recorder.Describes base (.ref id) (.ref slot)) :
    Slotted base (recorder.withAdopted passed slot) pending filled := by
  have retains := (keeps_withAdopted recorder slot customs).retains
  have plain {id : CellId} (plain : ¬base.IsCustom id) :
      (recorder.withAdopted passed slot).slot? id = recorder.slot? id := by
    rw [slot?_withAdopted,if_neg fun listed => plain (customs id listed).1]
  constructor
  · exact slotted.copied
  · intro id other held
    rw [slot?_withAdopted] at held
    split_ifs at held
    · cases held
      exact taken
    · exact slotted.taken held
  · intro a b other plainA plainB heldA heldB
    exact slotted.apart plainA plainB (plain plainA ▸ heldA) (plain plainB ▸ heldB)
  · intro entry member
    obtain ⟨slot,head,equal,defines⟩ := slotted.heads entry member
    exact ⟨slot,head,equal,retains.defines defines⟩
  · intro id other custom held
    rw [slot?_withAdopted] at held
    split_ifs at held with listed
    · cases held
      exact retains.describes (described id listed)
    · exact retains.describes (slotted.adopted custom held)
  · exact slotted.allocated
  · exact fun entry member => retains.contains (slotted.waiting entry member)
  · exact slotted.numbered

end

lemma finds {plain : Value} (slotted : Slotted base recorder pending filled)
    (finds : recorder.Finds pending plain found pending' later)
    (leads : base.Leads recorder.graph value plain) :
    Slotted base later pending' filled ∧ Keeps base recorder later ∧ later.Describes base value found := by
  cases finds with
  | scalar more plain shown => exact ⟨slotted.withLoaders more,keeps_withLoaders base recorder more,.shows leads shown⟩
  | @nothing id missing =>
    refine ⟨slotted,.refl base recorder,.missing leads ?_⟩
    cases there : base.cell? id with
    | none => rfl
    | some cell =>
      obtain ⟨target,fresh,rfl⟩ := missing cell (slotted.copied.cell? there)
      exact absurd ⟨target,fresh,there⟩ (leads.plain id rfl)
  | known held => exact ⟨slotted,.refl base recorder,.shows leads (.container held)⟩
  | @made id cell more head free there contains shown =>
    exact ⟨(slotted.withLoaders more).withSlot free there contains shown,
      (keeps_withLoaders base recorder more).trans (keeps_withSlot base free),
      .shows leads (.container (slot?_withSlot (recorder.withLoaders more) id))⟩

lemma bare {plain : Value} (slotted : Slotted base recorder pending filled)
    (finds : recorder.Finds pending plain found pending' later)
    (leads : base.Leads recorder.graph value plain) (none : found.slot? = none) :
    ∃ plain, base.Leads base value plain ∧
      ∀ id cell, plain = .ref id → base.cell? id = some cell → cell.isContainer = false := by
  have other : ∀ id cell, plain = .ref id → recorder.graph.cell? id = some cell → cell.isContainer ≠ true := by
    rintro id cell rfl there contains
    obtain ⟨slot,rfl,-⟩ := finds.slot_of_container there contains
    cases none
  refine ⟨plain,leads.uncopied fun id cell same there => ?_,fun id cell same there => ?_⟩
  · exact Bool.eq_false_iff.2 fun isCopied => other id cell same there (Cell.isContainer_of_isCopied isCopied)
  · exact Bool.eq_false_iff.2 (other id cell same (slotted.copied.cell? there))

end Slotted

/-- A custom object is recorded as what it leads to, and shares the slot of that from then on. -/
lemma Slotted.finding (slotted : Slotted base recorder pending filled)
    (finding : Finding base recorder pending value found pending' later) :
    Places base filled recorder value found pending' later := by
  cases finding with
  | plain plain finds =>
    obtain ⟨slotted',keeps,describes⟩ := slotted.finds finds (.here plain)
    exact ⟨slotted',keeps,describes,fun same custom => absurd custom (plain _ same), slotted.bare finds (.here plain)⟩
  | known custom held =>
    refine ⟨slotted,.refl base recorder,slotted.adopted custom held,?_,nofun⟩
    rintro _ _ ⟨rfl⟩ - - ⟨rfl⟩
    exact held
  | @custom id plain passed found pending' middle third later custom free listed expands finds adopted =>
    obtain ⟨leads,⟨_,rfl,customs⟩,expanded⟩ := expands
    obtain ⟨slottedMiddle,keepsMiddle,free⟩ : Slotted base middle pending filled ∧
        Keeps base recorder middle ∧ middle.slot? id = none := by
      rcases expanded with rfl | ⟨cell,isCopied,rfl,-⟩
      · exact ⟨slotted,.refl base _,free⟩
      · exact ⟨slotted.withCell isCopied,keeps_withCell base recorder cell,free⟩
    obtain ⟨slottedThird,keepsThird,describes⟩ := slottedMiddle.finds finds leads
    have bare := slottedMiddle.bare finds leads
    rcases adopt_ok adopted with ⟨rfl,none⟩ | ⟨other,slot,rfl,held,rfl⟩
    · refine ⟨slottedThird,keepsMiddle.trans keepsThird,describes,fun _ _ _ used => ?_,bare⟩
      obtain ⟨other,same,held⟩ := finds.container_of_slot used
      cases (none other same).symm.trans held
    · have areCustom : ∀ other ∈ passed, base.IsCustom other ∧
          (third.slot? other = none ∨ ∃ hook, base.Answers hook other) := by
        intro other member
        obtain ⟨isCustom,-,⟨⟨rfl⟩⟩ | answered⟩ := customs other member
        · exact ⟨isCustom,.inl (finds.free (fun same => leads.plain _ same custom) free)⟩
        · exact ⟨isCustom,.inr answered⟩
      have keepsLast := keeps_withAdopted third slot areCustom
      have described : ∀ id ∈ passed, third.Describes base (.ref id) (.ref slot) := fun id member =>
        .shows ((customs id member).2.1.mono keepsThird.retains.cell?) (.container held)
      refine ⟨slottedThird.withAdopted areCustom (slottedThird.taken held) described,
        (keepsMiddle.trans keepsThird).trans keepsLast,keepsLast.retains.describes describes,?_,bare⟩
      rintro _ used ⟨rfl⟩ - - shared
      obtain ⟨_,⟨rfl⟩,same⟩ := finds.container_of_slot shared
      rw [slot?_withAdopted,if_pos listed,← held,same]

lemma leaf_places (slotted : Slotted base recorder pending filled) (paid : Paid base recorder)
    (done : leaf value pending recorder = .ok (found, pending') later) :
    Places base filled recorder value found pending' later ∧ Paid base later := by
  have finding := leaf_finding slotted.copied done
  exact ⟨slotted.finding finding,paid.finding finding⟩

/-! ### Whole recordings -/

section
variable (slotted : Slotted base recorder pending filled)
include slotted

lemma leaves_place (paid : Paid base recorder)
    (done : Payload.leaves values pending recorder = .ok (leaves, pending') later) :
    Slotted base later pending' filled ∧ Keeps base recorder later ∧ Paid base later ∧
      values.Forall₂ (later.Notes base) leaves := by
  induction values generalizing recorder pending leaves with
  | nil =>
    cases done
    exact ⟨slotted,.refl base _,paid,.nil⟩
  | cons value rest ih =>
    obtain ⟨⟨first,next⟩,middle,head,done⟩ := ok_of_bind done
    obtain ⟨⟨others,last⟩,end_,tail,done⟩ := ok_of_bind done
    cases done
    obtain ⟨⟨slotted,keeps,notes⟩,paid⟩ := leaf_places slotted paid head
    obtain ⟨slotted,keepsRest,paid,others⟩ := ih slotted paid tail
    exact ⟨slotted,keeps.trans keepsRest,paid,.cons (keepsRest.retains.notes notes) others⟩

lemma bodyOf_places (paid : Paid base recorder) (done : bodyOf cell pending recorder = .ok (body, pending') later) :
    Slotted base later pending' filled ∧ Keeps base recorder later ∧ Paid base later ∧
      ∃ leaves, body = Body.of cell leaves ∧ cell.parts.Forall₂ (later.Notes base) leaves := by
  obtain ⟨⟨leaves,next⟩,middle,found,done⟩ := ok_of_bind done
  obtain ⟨slotted,keeps,paid,described⟩ := leaves_place slotted paid found
  cases cell <;> cases done <;> exact ⟨slotted,keeps,paid,leaves,rfl,described⟩

lemma Slotted.take (first : pending.waiting = (slot, cell) :: rest) :
    Slotted base recorder { pending with waiting := rest } (filled ++ [slot]) ∧ recorder.Contains base slot cell := by
  have waiting := slotted.waiting
  have numbered := slotted.numbered
  rw [first] at waiting numbered
  refine ⟨{ slotted with
    waiting := fun entry member => waiting entry (mem_cons_of_mem _ member)
    numbered := by simpa using numbered },waiting (slot, cell) mem_cons_self⟩

end

structure Ready (base : Graph) (recorder : Recorder) (fills : List Entry) (slots : List Nat) : Prop where
  slots : fills.filterMap Entry.filled? = slots
  bodies : ∀ entry ∈ fills, ∃ slot cell leaves, entry = .fill slot (Body.of cell leaves) ∧
    recorder.Contains base slot cell ∧ cell.parts.Forall₂ (recorder.Notes base) leaves

lemma Ready.add (ready : Ready base recorder fills slots) (keeps : Keeps base recorder later)
    (contains : recorder.Contains base slot cell)
    (noted : cell.parts.Forall₂ (later.Notes base) leaves) :
    Ready base later (fills ++ [.fill slot (Body.of cell leaves)]) (slots ++ [slot]) := by
  refine ⟨by simp [ready.slots,Entry.filled?],fun entry member => ?_⟩
  rcases mem_append.1 member with old | new
  · obtain ⟨slot,cell,leaves,equal,contains,noted⟩ := ready.bodies entry old
    exact ⟨slot,cell,leaves,equal,keeps.retains.contains contains,noted.imp fun _ _ => keeps.retains.notes⟩
  · obtain rfl := mem_singleton.1 new
    exact ⟨slot,_,_,rfl,keeps.retains.contains contains,noted⟩

/-- There are no more slots than cells, so the fuel lasts until nothing waits. -/
lemma fillAll_places {earlier : List Nat} {written : List Entry × List Entry}
    (slotted : Slotted base recorder pending (earlier ++ slots)) (paid : Paid base recorder)
    (ready : Ready base recorder fills slots) (enough : base.cells.length < fuel + slots.length)
    (done : fillAll fuel pending fills recorder = .ok written later) :
    Keeps base recorder later ∧ Paid base later ∧ ∃ slots,
      Slotted base later { allocations := written.1 } (earlier ++ slots) ∧ Ready base later written.2 slots := by
  induction fuel generalizing recorder pending fills slots with
  | zero =>
    have count := slotted.numbered.length_eq
    have few := paid.few
    simp only [length_append,length_map,length_range] at count
    omega
  | succ fuel ih =>
    cases first : pending.waiting with
    | nil =>
      simp only [fillAll,first] at done
      cases done
      refine ⟨.refl base _,paid,slots,{ slotted with waiting := by simp, numbered := ?_ },ready⟩
      simpa [first] using slotted.numbered
    | cons entry rest =>
      obtain ⟨slot,cell⟩ := entry
      simp only [fillAll,first] at done
      obtain ⟨⟨body,next⟩,middle,found,done⟩ := ok_of_bind done
      obtain ⟨taken,contains⟩ := slotted.take first
      obtain ⟨slotted,keeps,paid,leaves,rfl,noted⟩ := bodyOf_places taken paid found
      have more : base.cells.length < fuel + (slots ++ [slot]).length := by
        simp only [length_append,length_singleton]
        omega
      rw [append_assoc] at slotted
      obtain ⟨keepsRest,last⟩ := ih slotted paid (ready.add keeps contains noted) more done
      exact ⟨keeps.trans keepsRest,last⟩

structure Settled (base : Graph) (values : List Value) (recorder : Recorder) : Prop where
  slotted : Slotted base recorder {} (recorder.definitions.filterMap Entry.filled?)
  paid : Paid base recorder
  ordered : allocatesFrom [] recorder.definitions = true
  defined : ∀ entry ∈ recorder.definitions, recorder.Defines base entry
  writes : recorder.Writes base values (recorder.Notes base)

lemma settled_start (base : Graph) : Settled base [] { graph := base } := by
  refine ⟨?_,paid_start base,rfl,by simp,.nil,by simp⟩
  constructor <;> first
    | exact ⟨[],by simp,by simp⟩
    | simp [slot?]

section
variable (stand : values.Forall₂ (recorder.Stands base) leaves)
include stand

lemma taken_of_stand : ∀ leaf ∈ leaves, ∀ slot ∈ leaf.slot?, slot < recorder.nextSlot := by
  induction stand with
  | nil => simp
  | cons stands _ ih => exact forall_mem_cons.2 ⟨stands.taken,ih⟩

lemma stands_of_mem (member : value ∈ values) : ∃ leaf, recorder.Stands base value leaf := by
  induction stand with
  | nil => cases member
  | @cons _ leaf _ _ stands _ ih =>
    rcases mem_cons.1 member with rfl | member
    · exact ⟨leaf,stands⟩
    · exact ih member

end

lemma Defines.uses_lt (defines : recorder.Defines base (.fill slot body))
    (taken : ∀ {id slot}, recorder.slot? id = some slot → slot < recorder.nextSlot) :
    ∀ used ∈ (Entry.fill slot body).uses, used < recorder.nextSlot := by
  cases defines with
  | @fills _ cell leaves contains described =>
    intro used member
    rcases mem_cons.1 member with rfl | inner
    · obtain ⟨id,_,held,_⟩ := contains
      exact taken held
    · obtain ⟨leaf,listed,shown⟩ := mem_filterMap.1 inner
      exact taken_of_stand (described.imp fun _ _ describes => describes.stands taken) leaf
        (Body.leaves_of_subset cell leaves listed) used shown

section
variable (settled : Settled base values recorder)
include settled

lemma Settled.write (keeps : Keeps base recorder later)
    (slotted : Slotted base later { allocations } (recorder.definitions.filterMap Entry.filled? ++ slots))
    (paid : Paid base later) (ready : Ready base later fills slots)
    (notes : later.Notes base value found) :
    Settled base (values ++ [value]) (later.withWritten (found, allocations, fills)) := by
  have allocatesNone : fills.filterMap Entry.allocated? = [] := by
    refine filterMap_eq_nil_iff.2 fun entry member => ?_
    obtain ⟨slot,cell,leaves,rfl,_⟩ := ready.bodies entry member
    rfl
  have fillsNone : allocations.filterMap Entry.filled? = [] := by
    refine filterMap_eq_nil_iff.2 fun entry member => ?_
    obtain ⟨slot,head,rfl,-⟩ := slotted.heads entry member
    rfl
  have fill (entry) (member : entry ∈ fills) : later.Defines base entry := by
    obtain ⟨slot,cell,leaves,rfl,contains,noted⟩ := ready.bodies entry member
    exact .fills contains (noted.imp fun _ _ notes => notes.describes)
  have retains : Retains base later (later.withWritten (found, allocations, fills)) :=
    ⟨⟨[],by simp [withWritten]⟩,List.Subset.refl _,fun _ held => held⟩
  have definitions : (later.withWritten (found, allocations, fills)).definitions =
      recorder.definitions ++ allocations ++ fills := by
    rw [withWritten,keeps.definitions]
  have allocated := slotted.allocated
  have before := settled.slotted.allocated
  rw [keeps.definitions,filterMap_append] at allocated
  rw [append_nil] at before
  refine ⟨?_,⟨paid.copies,paid.few⟩,?_,?_,?_,?_⟩
  · rw [definitions,filterMap_append,filterMap_append,fillsNone,ready.slots,append_nil]
    refine { slotted with
      heads := by simp
      waiting := by simp
      adopted := fun custom held => retains.describes (slotted.adopted custom held)
      allocated := ?_ }
    rw [definitions]
    simpa [allocatesNone,withWritten] using allocated
  · rw [definitions,allocatesFrom_append,allocatesFrom_append,settled.ordered,Bool.true_and,
      Bool.and_eq_true,nil_append,nil_append,filterMap_append,allocated]
    refine ⟨allocatesFrom_of_unused (fun entry member => ?_) ?_,
      allocatesFrom_of_filled (filterMap_eq_nil_iff.1 allocatesNone) fun entry member used uses => ?_⟩
    · obtain ⟨slot,head,rfl,-⟩ := slotted.heads entry member
      rfl
    · rw [allocated]
      exact nodup_range
    · obtain ⟨slot,cell,leaves,rfl,-⟩ := ready.bodies entry member
      exact mem_range.2 ((fill _ member).uses_lt slotted.taken used uses)
  · intro entry member
    rw [definitions,mem_append,mem_append] at member
    apply retains.defines
    rcases member with (old | made) | new
    · exact keeps.retains.defines (settled.defined entry old)
    · obtain ⟨_,_,-,defines⟩ := slotted.heads entry made
      exact defines
    · exact fill entry new
  · refine rel_append ?_ (.cons (retains.notes notes) .nil)
    rw [keeps.expressions]
    exact settled.writes.roots.imp fun _ _ notes => retains.notes (keeps.retains.notes notes)
  · intro slot body member
    rw [definitions,mem_append,mem_append] at member
    rcases member with (old | made) | new
    · obtain ⟨cell,leaves,contains,equal,noted⟩ := settled.writes.parts slot body old
      exact ⟨cell,leaves,retains.contains (keeps.retains.contains contains),equal,
        noted.imp fun _ _ notes => retains.notes (keeps.retains.notes notes)⟩
    · obtain ⟨_,_,⟨⟩,-⟩ := slotted.heads _ made
    · obtain ⟨_,cell,leaves,⟨rfl⟩,contains,noted⟩ := ready.bodies _ new
      exact ⟨cell,leaves,retains.contains contains,rfl,noted.imp fun _ _ => retains.notes⟩

lemma Settled.described : values.Forall₂ (recorder.Describes base) recorder.expressions :=
  settled.writes.roots.imp fun _ _ notes => notes.describes

lemma Settled.stand : values.Forall₂ (recorder.Stands base) recorder.expressions :=
  settled.described.imp fun _ _ describes => describes.stands settled.slotted.taken

lemma Settled.allocates : allocatesFrom [] recorder.written.entries = true := by
  have allocated := settled.slotted.allocated
  rw [append_nil] at allocated
  change allocatesFrom [] (recorder.definitions ++ recorder.expressions.map Entry.value) = true
  rw [allocatesFrom_append,settled.ordered,allocated,Bool.true_and]
  refine allocatesFrom_of_filled (fun entry listed => ?_) fun entry listed slot used => ?_
  · obtain ⟨leaf,-,rfl⟩ := mem_map.1 listed
    rfl
  · obtain ⟨leaf,member,rfl⟩ := mem_map.1 listed
    exact mem_range.2 (taken_of_stand settled.stand leaf member slot (Option.mem_toList.1 used))

lemma Settled.record (done : recorder.record value = (.ok (), later)) : Settled base (values ++ [value]) later ∧
      ∃ root, later.expressions = recorder.expressions ++ [root] := by
  rw [record_eq] at done
  cases run : findAll value recorder with
  | error failure middle =>
    rw [run] at done
    cases done
  | ok found middle =>
    rw [run] at done
    cases done
    obtain ⟨_,_,⟨rfl⟩,rest⟩ := ok_of_bind run
    obtain ⟨⟨root,pending⟩,second,head,rest⟩ := ok_of_bind rest
    obtain ⟨⟨allocations,fills⟩,third,tail,rest⟩ := ok_of_bind rest
    cases rest
    obtain ⟨⟨slotted,keeps,notes⟩,paid⟩ := leaf_places settled.slotted settled.paid head
    have enough : base.cells.length < recorder.graph.cells.length + 2 + ([] : List Nat).length := by
      have := settled.slotted.copied.length_le
      simp only [length_nil]
      omega
    have start : Slotted base second pending
        (recorder.definitions.filterMap Entry.filled? ++ []) := by simpa using slotted
    obtain ⟨keepsRest,paid,slots,slotted,ready⟩ := fillAll_places start paid ⟨rfl,by simp⟩ enough tail
    refine ⟨settled.write (keeps.trans keepsRest) slotted paid ready (keepsRest.retains.notes notes),root,?_⟩
    rw [withWritten,(keeps.trans keepsRest).expressions]

end

lemma Settled.recordAll (settled : Settled base before recorder)
    (done : recorder.recordAll values = (values.map fun _ => .ok (), later)) :
    Settled base (before ++ values) later ∧ ∀ n, (recorder.recordAll (values.take n)).2.expressions =
        later.expressions.take (recorder.expressions.length + n) := by
  induction values generalizing recorder before with
  | nil =>
    cases done
    exact ⟨by simpa using settled,fun n => by simp [Recorder.recordAll]⟩
  | cons value rest ih =>
    simp only [Recorder.recordAll,map_cons,Prod.mk.injEq,List.cons.injEq] at done
    obtain ⟨⟨first,others⟩,last⟩ := done
    have written : recorder.record value = (.ok (), (recorder.record value).2) := Prod.ext first rfl
    obtain ⟨next,root,added⟩ := settled.record written
    obtain ⟨all,prefixes⟩ := ih next (Prod.ext others last)
    refine ⟨by simpa using all,fun n => ?_⟩
    have whole := prefixes 0
    rw [take_zero,added,length_append,length_singleton] at whole
    cases n with
    | zero =>
      have taken := congrArg (List.take recorder.expressions.length) whole
      rw [take_take] at taken
      simpa [Recorder.recordAll,added] using taken
    | succ n =>
      have later := prefixes n
      rw [added,length_append,length_singleton,Nat.add_assoc,Nat.add_comm 1] at later
      exact later

section
variable (settled : Settled base values recorder)
include settled

lemma Settled.contained (first : recorder.Contains base slot cell)
    (second : recorder.Contains base slot other) : cell = other := by
  obtain ⟨a,plain,held,found⟩ := first
  obtain ⟨b,plain',held',found'⟩ := second
  cases settled.slotted.apart plain plain' held held'
  exact Option.some.inj (found.symm.trans found')

lemma Settled.defined_of_slot (own : ¬base.IsCustom id)
    (there : recorder.graph.cell? id = some cell) (held : recorder.slot? id = some slot) :
    ∃ leaves, .fill slot (Body.of cell leaves) ∈ recorder.definitions ∧
      cell.parts.Forall₂ (recorder.Describes base) leaves := by
  have numbered := settled.slotted.numbered
  rw [map_nil,append_nil] at numbered
  obtain ⟨entry,member,fills⟩ := mem_filterMap.1 (numbered.mem_iff.2 (mem_range.2 (settled.slotted.taken held)))
  cases entry with
  | fill =>
    cases fills
    obtain _ | ⟨contains,described⟩ := settled.defined _ member
    cases settled.contained contains ⟨id,own,held,there⟩
    exact ⟨_,member,described⟩
  | allocate | value => cases fills

lemma Settled.fill_of_slot (there : base.cell? id = some cell)
    (contains : cell.isContainer = true) (held : recorder.slot? id = some slot) :
    ∃ leaves, .fill slot (Body.of cell leaves) ∈ recorder.definitions ∧
      cell.parts.Forall₂ (recorder.Stands base) leaves := by
  have found := settled.slotted.copied.cell? there
  obtain ⟨leaves,member,described⟩ :=
    settled.defined_of_slot (settled.slotted.copied.not_custom found contains) found held
  exact ⟨leaves,member,described.imp fun _ _ describes => describes.stands settled.slotted.taken⟩

end

lemma Stands.slot_of_container (stands : recorder.Stands base (.ref id) found)
    (copied : base.Copied recorder.graph) (there : base.cell? id = some cell)
    (contains : cell.isContainer = true) : ∃ slot, recorder.slot? id = some slot := by
  have own := copied.not_custom (copied.cell? there) contains
  have plain : base.IsPlain (.ref id) := by
    rintro _ ⟨rfl⟩
    exact ⟨⟨cell,there⟩,own⟩
  cases stands.shown plain with
  | lazy isLazy =>
    cases isLazy.symm.trans (copied.cell? there)
    cases contains
  | container held => exact ⟨_,held⟩

lemma Settled.slot_of_reaches (settled : Settled base values recorder)
    (reached : base.Reaches values value) (is : value = .ref id) (there : base.cell? id = some cell)
    (contains : cell.isContainer = true) : ∃ slot, recorder.slot? id = some slot := by
  have copied := settled.slotted.copied
  induction reached generalizing id cell with
  | root listed =>
    obtain ⟨leaf,stands⟩ := stands_of_mem settled.stand listed
    exact (is ▸ stands).slot_of_container copied there contains
  | @part outer outerCell value _ found listed ih =>
    have holds : outerCell.isContainer = true := by
      cases outerCell with
      | lazy | custom => cases listed
      | _ => rfl
    obtain ⟨slot,held⟩ := ih rfl found holds
    obtain ⟨leaves,_,stand⟩ := settled.fill_of_slot found holds held
    obtain ⟨leaf,stands⟩ := stands_of_mem stand listed
    exact (is ▸ stands).slot_of_container copied there contains

end Recorder

/-- For every graph, custom objects included, and all values that are written without a failure: slots
are allocated in order from the first one, each is filled once, and is used only after it is allocated;
each write adds one expression, which stands for its value; and of the containers that are reached
without custom objects each has a slot, where what it holds is filled in, and no two have the same. -/
theorem payload_slots_are_well_formed (graph : Graph) (values : List Value) {later : Recorder}
    (done : Recorder.recordAll { graph } values = (values.map fun _ => .ok (), later)) :
    later.written.entries.filterMap Entry.allocated? = List.range later.nextSlot ∧
      (later.written.entries.filterMap Entry.filled?).Perm (List.range later.nextSlot) ∧
      allocatesFrom [] later.written.entries = true ∧
      (∀ n, (Recorder.recordAll { graph } (values.take n)).2.expressions = later.expressions.take n) ∧
      values.Forall₂ (later.Stands graph) later.expressions ∧
      (∀ id cell, graph.Reaches values (.ref id) → graph.cell? id = some cell →
        cell.isContainer = true → ∃ slot leaves, later.slot? id = some slot ∧
          .fill slot (Body.of cell leaves) ∈ later.definitions ∧
          cell.parts.Forall₂ (later.Stands graph) leaves) ∧
      ∀ a b, graph.Reaches values (.ref a) → graph.Reaches values (.ref b) →
        (graph.cell? a).any Cell.isContainer = true → (graph.cell? b).any Cell.isContainer = true →
        (later.slot? a = later.slot? b ↔ a = b) := by
  obtain ⟨settled, prefixes⟩ := (Recorder.settled_start graph).recordAll done
  have allocated := settled.slotted.allocated
  have numbered := settled.slotted.numbered
  rw [List.append_nil] at allocated
  rw [List.map_nil, List.append_nil] at numbered
  have reaches : ∀ id cell, graph.Reaches values (.ref id) → graph.cell? id = some cell →
      cell.isContainer = true → ∃ slot, later.slot? id = some slot := fun id cell reached there contains =>
    settled.slot_of_reaches reached rfl there contains
  refine ⟨?_, ?_, settled.allocates, ?_, settled.stand, ?_, ?_⟩
  · simpa [Recorder.written, Written.entries, Entry.allocated?, Function.comp_def] using allocated
  · simpa [Recorder.written, Written.entries, Entry.filled?, Function.comp_def] using numbered
  · exact fun n => (prefixes n).trans (by simp)
  · intro id cell reached there contains
    obtain ⟨slot, held⟩ := reaches id cell reached there contains
    obtain ⟨leaves, fills, stand⟩ := settled.fill_of_slot there contains held
    exact ⟨slot, leaves, held, fills, stand⟩
  · intro a b reachedA reachedB containsA containsB
    obtain ⟨cellA, thereA, isA⟩ := (Option.any_eq_true _ _).mp containsA
    obtain ⟨cellB, thereB, isB⟩ := (Option.any_eq_true _ _).mp containsB
    have copied := settled.slotted.copied
    obtain ⟨slot, held⟩ := reaches a cellA reachedA thereA isA
    refine ⟨fun same => ?_, fun same => same ▸ rfl⟩
    exact settled.slotted.apart (copied.not_custom (copied.cell? thereA) isA)
      (copied.not_custom (copied.cell? thereB) isB) held (same ▸ held)

/-- An array that holds an object, a hook that copies the object each time, and a hook that stands for
the array itself. -/
def hooked : Graph where
  cells := [.array [.ref 1,.ref 2,.ref 2,.ref 3],.object none [("self", .ref 1),("back", .ref 0)],
    .custom (.ref 1) true,.custom (.ref 0) false]

theorem hooked_slots :
    let run := Recorder.recordAll { graph := hooked } [.ref 3, .ref 0, .ref 1]
    run.1 = [.ok (), .ok (), .ok ()] ∧ run.2.nextSlot = 3 ∧
      run.2.expressions = [.ref 0, .ref 0, .ref 1] ∧
      (run.2.written.entries.filterMap Entry.filled?).Perm (List.range run.2.nextSlot) ∧
      (run.2.slot? 0 = run.2.slot? 1 ↔ 0 = 1) := by
  intro run
  have outcomes : run.1 = [.ok (), .ok (), .ok ()] := rfl
  obtain ⟨-, filled, -, -, -, -, apart⟩ :=
    payload_slots_are_well_formed hooked [.ref 3, .ref 0, .ref 1] (Prod.ext outcomes rfl)
  exact ⟨outcomes, rfl, rfl, filled,
    apart 0 1 (.root (by simp)) (.root (by simp)) (by decide) (by decide)⟩

end Payload
end Resumable
