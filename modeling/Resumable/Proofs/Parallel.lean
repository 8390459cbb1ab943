import Resumable.Proofs.Finding

/-! Two recordings side by side. One has taken slots, copies and loaders that the other has not; from
then on both are given the same values. What they write differs in the numbers of slots and the
names of loaders only. -/
namespace Resumable
open List Nat
variable {passed : List CellId}

def Graph.IsWhole (graph : Graph) : Prop := ∀ cell ∈ graph.cells, ∀ id, .ref id ∈ cell.leadsTo → id < graph.cells.length

def Graph.UsesUrl (graph : Graph) (url : String) : Prop :=
  ∃ cell ∈ graph.cells, ∃ target, cell.named? = some target ∧ target.url = url

namespace Payload

/-! ### Where two recordings part -/

/-- Where two recordings part: the cells that both have by then, those that only the other one has,
the first slot that is taken afterwards, and how many slots only the other one has taken. Both meet
nothing but a region of the graph afterwards. -/
structure Parting where
  graph : Graph
  whole : graph.IsWhole
  apart : Digest.TellsApart graph.UsesUrl
  base : List Cell
  long : graph.cells.length ≤ base.length
  extra : List Cell
  firstSlot : Nat
  skipped : Nat
  region : CellId → Prop
  inside : ∀ {id}, region id → id < graph.cells.length
  closed : ∀ {id cell next}, region id → graph.cell? id = some cell → .ref next ∈ cell.leadsTo → region next

namespace Parting

variable {parting : Parting} {id : CellId}

def cell (parting : Parting) (id : Nat) : Nat :=
  if id < parting.base.length then id else id + parting.extra.length

def slot (parting : Parting) (slot : Nat) : Nat :=
  if slot < parting.firstSlot then slot else slot + parting.skipped

def value (parting : Parting) : Value → Value
  | .ref id => .ref (parting.cell id)
  | value => value

def Covers (parting : Parting) (value : Value) : Prop := ∀ id, value = .ref id → parting.region id

/-- A cell of the region, or a copy that was made after the parting. -/
def Knows (parting : Parting) (id : CellId) : Prop := parting.region id ∨ parting.base.length ≤ id

lemma cell_of_region (covered : parting.region id) : parting.cell id = id :=
  if_pos ((parting.inside covered).trans_le parting.long)

variable {a b : Nat}

lemma cell_injective (same : parting.cell a = parting.cell b) : a = b := by
  unfold cell at same
  split_ifs at same <;> omega

lemma slot_injective (same : parting.slot a = parting.slot b) : a = b := by
  unfold slot at same
  split_ifs at same <;> omega

lemma value_of_covers {value : Value} (covered : parting.Covers value) : parting.value value = value := by
  cases value with
  | ref id => exact congrArg Value.ref (cell_of_region (covered id rfl))
  | _ => rfl

end Parting

/-! ### What is alike -/

section Alike
variable (parting : Parting) (left right : Recorder)

def Target.Alike (a b : Target) : Prop :=
  a.name = b.name ∧ ∃ url, ⟨a.loader,url⟩ ∈ left.loaders ∧ ⟨b.loader,url⟩ ∈ right.loaders

inductive Leaf.Alike : Leaf → Leaf → Prop
  | undefined : Alike .undefined .undefined
  | null : Alike .null .null
  | boolean (value : Bool) : Alike (.boolean value) (.boolean value)
  | number (value : Number) : Alike (.number value) (.number value)
  | string (value : String) : Alike (.string value) (.string value)
  | symbol (key : String) : Alike (.symbol key) (.symbol key)
  | date (time : Number) : Alike (.date time) (.date time)
  | anchor (id : NodeId) :
    Alike (.anchor (parting.graph.document.pathTo id)) (.anchor (parting.graph.document.pathTo id))
  | ref {slot : Nat} (taken : slot < left.nextSlot) : Alike (.ref slot) (.ref (parting.slot slot))
  | lazy {a b : Target} (targets : Target.Alike left right a b) : Alike (.lazy a) (.lazy b)

inductive Head.Alike : Head → Head → Prop
  | array : Alike .array .array
  | object : Alike .object .object
  | closure {a b : Target} (targets : Target.Alike left right a b) : Alike (.closure a) (.closure b)
  | member {a b : Target} (targets : Target.Alike left right a b) : Alike (.member a) (.member b)

inductive Body.Alike : Body → Body → Prop
  | elements {a b : List Leaf} (leaves : a.Forall₂ (Leaf.Alike parting left right) b) :
    Alike (.elements a) (.elements b)
  | captured {a b : List Leaf} (leaves : a.Forall₂ (Leaf.Alike parting left right) b) :
    Alike (.captured a) (.captured b)
  | properties {keys : List String} {a b : List Leaf} (leaves : a.Forall₂ (Leaf.Alike parting left right) b) :
    Alike (.properties (keys.zip a)) (.properties (keys.zip b))

inductive Entry.Alike : Entry → Entry → Prop
  | allocate {slot : Nat} {a b : Head} (taken : slot < left.nextSlot)
    (heads : Head.Alike left right a b) : Alike (.allocate slot a) (.allocate (parting.slot slot) b)
  | fill {slot : Nat} {a b : Body} (taken : slot < left.nextSlot)
    (bodies : Body.Alike parting left right a b) : Alike (.fill slot a) (.fill (parting.slot slot) b)
  | value {a b : Leaf} (leaves : Leaf.Alike parting left right a b) : Alike (.value a) (.value b)

end Alike

def Entry.allocated? : Entry → Option Nat
  | allocate slot _ => some slot
  | _ => none

def Entry.uses : Entry → List Nat
  | allocate _ _ => []
  | fill slot body => slot :: body.leaves.filterMap Leaf.slot?
  | value leaf => leaf.slot?.toList

/-- Every slot is allocated before it is used, and none is allocated twice. -/
def allocatesFrom (known : List Nat) : List Entry → Bool
  | [] => true
  | entry :: rest =>
    entry.uses.all known.contains && entry.allocated?.all (fun slot => !known.contains slot) &&
      allocatesFrom (known ++ entry.allocated?.toList) rest

namespace Recorder

variable {known : List Nat} {entries : List Entry} {target : Value} {fresh : Bool} {failure : Diagnostic} {slot : Nat}

/-! ### Slots are allocated before they are used -/

lemma allocated_cons (entry : Entry) (rest : List Entry) : (entry :: rest).filterMap Entry.allocated? =
      entry.allocated?.toList ++ rest.filterMap Entry.allocated? := by
  rw [filterMap_cons]
  cases entry.allocated? <;> rfl

lemma allocatesFrom_append (known : List Nat) (first second : List Entry) :
    allocatesFrom known (first ++ second) = (allocatesFrom known first &&
      allocatesFrom (known ++ first.filterMap Entry.allocated?) second) := by
  induction first generalizing known with
  | nil => simp [allocatesFrom]
  | cons entry rest ih =>
    rw [cons_append,allocatesFrom,allocatesFrom,ih,allocated_cons,append_assoc,
      Bool.and_assoc _ _ (allocatesFrom _ second)]

lemma allocatesFrom_of_unused (unused : ∀ entry ∈ entries, entry.uses = [])
    (fresh : (known ++ entries.filterMap Entry.allocated?).Nodup) :
    allocatesFrom known entries = true := by
  induction entries generalizing known with
  | nil => rfl
  | cons entry rest ih =>
    rw [allocated_cons,← append_assoc] at fresh
    have others := ih (fun other mem => unused other (mem_cons_of_mem entry mem)) fresh
    have new : entry.allocated?.all (fun slot => !known.contains slot) = true := by
      cases is : entry.allocated? with
      | none => rfl
      | some slot =>
        rw [is,append_assoc,nodup_append] at fresh
        have apart : slot ∉ known := fun mem => fresh.2.2 slot mem slot (by simp) rfl
        simpa using apart
    rw [allocatesFrom,unused entry mem_cons_self,new,others]
    rfl

lemma allocatesFrom_of_filled (filled : ∀ entry ∈ entries, entry.allocated? = none)
    (used : ∀ entry ∈ entries, ∀ slot ∈ entry.uses, slot ∈ known) :
    allocatesFrom known entries = true := by
  induction entries with
  | nil => rfl
  | cons entry rest ih =>
    have others := ih (fun other mem => filled other (mem_cons_of_mem entry mem))
      fun other mem => used other (mem_cons_of_mem entry mem)
    have first : entry.uses.all known.contains = true := by simpa using used entry mem_cons_self
    simp [allocatesFrom,filled entry mem_cons_self,first,others]

/-! ### What is kept -/

/-- What a recording that has not been completed adds. -/
structure Extends (recorder later : Recorder) : Prop where
  graph : ∃ more, later.graph = { recorder.graph with cells := recorder.graph.cells ++ more }
  loaders : recorder.loaders ⊆ later.loaders
  nextSlot : recorder.nextSlot ≤ later.nextSlot
  definitions : later.definitions = recorder.definitions
  expressions : later.expressions = recorder.expressions

variable {parting : Parting} {recorder later last left right left' right' : Recorder}

lemma Extends.refl (recorder : Recorder) : recorder.Extends recorder := ⟨⟨[],by simp⟩,fun _ => id,le_rfl,rfl,rfl⟩

lemma Extends.trans (first : recorder.Extends later) (second : later.Extends last) : recorder.Extends last := by
  obtain ⟨more,grown⟩ := first.graph
  obtain ⟨others,further⟩ := second.graph
  exact ⟨⟨more ++ others,by rw [further,grown]; simp⟩,Subset.trans first.loaders second.loaders,
    first.nextSlot.trans second.nextSlot,second.definitions.trans first.definitions,
    second.expressions.trans first.expressions⟩

/-- Two recordings that go on keep their loaders and slots. -/
structure Spreads (left right left' right' : Recorder) : Prop where
  loadersLeft : left.loaders ⊆ left'.loaders
  loadersRight : right.loaders ⊆ right'.loaders
  slots : left.nextSlot ≤ left'.nextSlot

section Mono
variable (spreads : Spreads left right left' right')
include spreads

lemma targetAlike_mono (alike : Target.Alike left right a b) : Target.Alike left' right' a b := by
  obtain ⟨name,url,first,second⟩ := alike
  exact ⟨name,url,spreads.loadersLeft first,spreads.loadersRight second⟩

lemma headAlike_mono (alike : Head.Alike left right a b) : Head.Alike left' right' a b := by
  cases alike with
  | array => exact .array
  | object => exact .object
  | closure targets => exact .closure (targetAlike_mono spreads targets)
  | member targets => exact .member (targetAlike_mono spreads targets)

lemma leafAlike_mono (alike : Leaf.Alike parting left right a b) : Leaf.Alike parting left' right' a b := by
  cases alike with
  | ref taken => exact .ref (taken.trans_le spreads.slots)
  | lazy targets => exact .lazy (targetAlike_mono spreads targets)
  | _ => constructor

lemma leavesAlike_mono {a b : List Leaf} (alike : a.Forall₂ (Leaf.Alike parting left right) b) :
    a.Forall₂ (Leaf.Alike parting left' right') b :=
  alike.imp fun _ _ => leafAlike_mono spreads

lemma bodyAlike_mono (alike : Body.Alike parting left right a b) : Body.Alike parting left' right' a b := by
  cases alike with
  | elements leaves => exact .elements (leavesAlike_mono spreads leaves)
  | captured leaves => exact .captured (leavesAlike_mono spreads leaves)
  | properties leaves => exact .properties (leavesAlike_mono spreads leaves)

lemma entryAlike_mono (alike : Entry.Alike parting left right a b) : Entry.Alike parting left' right' a b := by
  cases alike with
  | allocate taken heads => exact .allocate (taken.trans_le spreads.slots) (headAlike_mono spreads heads)
  | fill taken bodies => exact .fill (taken.trans_le spreads.slots) (bodyAlike_mono spreads bodies)
  | value leaves => exact .value (leafAlike_mono spreads leaves)

end Mono

structure Advance (left right left' right' : Recorder) : Prop where
  left : left.Extends left'
  right : right.Extends right'

lemma Advance.refl (left right : Recorder) : Advance left right left right := ⟨.refl left,.refl right⟩

lemma Advance.trans (first : Advance left right left' right')
    (second : Advance left' right' left₂ right₂) : Advance left right left₂ right₂ :=
  ⟨first.left.trans second.left,first.right.trans second.right⟩

lemma Advance.spreads (advance : Advance left right left' right') : Spreads left right left' right' :=
  ⟨advance.left.loaders,advance.right.loaders,advance.left.nextSlot⟩

structure Parallel (parting : Parting) (left right : Recorder) : Prop where
  copies : ∃ copies, left.graph.cells = parting.graph.cells ++ copies ∧
    ∀ cell ∈ copies, cell ∈ parting.graph.cells ∧ cell.isCopied = true
  cells : ∃ new, left.graph.cells = parting.base ++ new ∧ right.graph.cells = parting.base ++ parting.extra ++ new
  document : left.graph.document = parting.graph.document ∧ right.graph.document = parting.graph.document
  slots : ∀ {id}, parting.Knows id → right.slot? (parting.cell id) = (left.slot? id).map parting.slot
  taken : ∀ {id slot}, left.slot? id = some slot → slot < left.nextSlot ∧ id < left.graph.cells.length
  nextSlot : parting.firstSlot ≤ left.nextSlot ∧ right.nextSlot = left.nextSlot + parting.skipped
  distinct : Distinct left.loaders
  known : ∀ loader ∈ left.loaders, parting.graph.UsesUrl loader.url
  loaders : ∀ loader ∈ left.loaders, ∃ name, ⟨name,loader.url⟩ ∈ right.loaders
  definitions : left.definitions.Forall₂ (Entry.Alike parting left right) right.definitions
  expressions : left.expressions.Forall₂ (Leaf.Alike parting left right) right.expressions

namespace Parallel

variable {id : CellId} {cell : Cell} (parallel : Parallel parting left right)
include parallel

lemma cell? (id : Nat) : right.graph.cell? (parting.cell id) = left.graph.cell? id := by
  obtain ⟨new,cellsLeft,cellsRight⟩ := parallel.cells
  rw [Graph.cell?,Graph.cell?,cellsLeft,cellsRight,Parting.cell,append_assoc]
  split_ifs with low
  · rw [getElem?_append_left low,getElem?_append_left low]
  · rw [getElem?_append_right (by omega),getElem?_append_right (by omega),
      getElem?_append_right (by omega)]
    congr 1
    omega

lemma cellOf? (value : Value) : right.graph.cellOf? (parting.value value) = left.graph.cellOf? value := by
  cases value with
  | ref id => exact parallel.cell? id
  | _ => rfl

lemma shown (value : Value) : right.graph.shown (parting.value value) = left.graph.shown value := by
  cases value with
  | ref id => simp only [Parting.value,Graph.shown,parallel.cell?]
  | node id => simp only [Parting.value,Graph.shown,parallel.document]
  | _ => rfl

lemma mem_cells (found : left.graph.cell? id = some cell) : cell ∈ parting.graph.cells := by
  obtain ⟨copies,cells,copied⟩ := parallel.copies
  have listed : cell ∈ left.graph.cells := mem_of_getElem? found
  rw [cells] at listed
  exact (mem_append.1 listed).elim (fun old => old) fun copy => (copied cell copy).1

lemma lt_of_custom (found : left.graph.cell? id = some (.custom target fresh)) : id < parting.graph.cells.length := by
  obtain ⟨copies,cells,copied⟩ := parallel.copies
  by_contra beyond
  rw [Graph.cell?,cells,getElem?_append_right (Nat.le_of_not_lt beyond)] at found
  cases (copied _ (mem_of_getElem? found)).2

lemma length_le : parting.graph.cells.length ≤ left.graph.cells.length ∧
    left.graph.cells.length ≤ right.graph.cells.length := by
  obtain ⟨copies,cells,-⟩ := parallel.copies
  obtain ⟨new,cellsLeft,cellsRight⟩ := parallel.cells
  constructor
  · rw [cells,length_append]
    omega
  · rw [cellsLeft,cellsRight]
    simp only [length_append]
    omega

lemma nextSlot_eq : right.nextSlot = parting.slot left.nextSlot := by
  rw [Parting.slot,if_neg (Nat.not_lt.2 parallel.nextSlot.1),parallel.nextSlot.2]

lemma written (advance : Advance left right left' right') :
    left'.definitions.Forall₂ (Entry.Alike parting left' right') right'.definitions ∧
      left'.expressions.Forall₂ (Leaf.Alike parting left' right') right'.expressions := by
  rw [advance.left.definitions,advance.right.definitions,advance.left.expressions, advance.right.expressions]
  exact ⟨parallel.definitions.imp fun _ _ => entryAlike_mono advance.spreads,
    parallel.expressions.imp fun _ _ => leafAlike_mono advance.spreads⟩

end Parallel

/-! ### Values that may be met -/

/-- A value that may be met: if it leads anywhere, then to the region in the end. -/
structure Safe (parting : Parting) (recorder : Recorder) (value : Value) : Prop where
  knows : ∀ {id}, value = .ref id → parting.Knows id
  there : ∀ {id}, value = .ref id → id < recorder.graph.cells.length
  covers : ∀ {id cell}, value = .ref id → recorder.graph.cell? id = some cell →
    ∀ next ∈ cell.leadsTo, parting.Covers next

lemma safe_of_covers (parallel : Parallel parting left right) (covered : parting.Covers value) :
    Safe parting left value where
  knows same := .inl (covered _ same)
  there same := (parting.inside (covered _ same)).trans_le parallel.length_le.1
  covers same found next listed id named := by
    obtain ⟨copies,cells,-⟩ := parallel.copies
    rw [Graph.cell?,cells,getElem?_append_left (parting.inside (covered _ same))] at found
    exact parting.closed (covered _ same) found (named ▸ listed)

lemma Safe.mono (safe : Safe parting recorder value) (extends_ : recorder.Extends later) :
    Safe parting later value := by
  obtain ⟨more,grown⟩ := extends_.graph
  refine ⟨safe.knows,fun same => ?_,fun same found => safe.covers same ?_⟩
  · rw [grown,length_append]
    exact Nat.lt_add_right _ (safe.there same)
  · rw [grown,Graph.cell?,getElem?_append_left (safe.there same)] at found
    exact found

/-! ### Two runs -/

/-- How two runs end: both go well and what they return is good, or both fail for one reason. Either
way the invariant holds afterwards, and nothing is lost. -/
inductive Ends {α β : Type} (invariant : Recorder → Recorder → Prop) (left right : Recorder)
    (good : Recorder → Recorder → α → β → Prop) :
    EStateM.Result Diagnostic Recorder α → EStateM.Result Diagnostic Recorder β → Prop
  | ok {a : α} {b : β} {left' right' : Recorder} (holds : invariant left' right')
    (advance : Advance left right left' right') (is : good left' right' a b) :
    Ends invariant left right good (.ok a left') (.ok b right')
  | error {failure : Diagnostic} {left' right' : Recorder} (holds : invariant left' right')
    (advance : Advance left right left' right') :
    Ends invariant left right good (.error failure left') (.error failure right')

section Ends
variable {α β γ δ : Type} {invariant : Recorder → Recorder → Prop}
  {good : Recorder → Recorder → α → β → Prop} {better : Recorder → Recorder → γ → δ → Prop}

lemma Ends.bind {x : Recording α} {y : Recording β} {f : α → Recording γ} {g : β → Recording δ}
    (first : Ends invariant left right good (x left) (y right))
    (next : ∀ left' right' a b, invariant left' right' → Advance left right left' right' →
      good left' right' a b → Ends invariant left' right' better (f a left') (g b right')) :
    Ends invariant left right better ((x >>= f) left) ((y >>= g) right) := by
  change Ends _ _ _ _ (EStateM.bind x f left) (EStateM.bind y g right)
  unfold EStateM.bind
  generalize x left = doneLeft at first
  generalize y right = doneRight at first
  cases first with
  | @ok a b left' right' holds advance is =>
    change Ends _ _ _ _ (f a left') (g b right')
    have rest := next left' right' a b holds advance is
    generalize f a left' = doneLeft at rest
    generalize g b right' = doneRight at rest
    cases rest with
    | ok holds more is => exact .ok holds (advance.trans more) is
    | error holds more => exact .error holds (advance.trans more)
  | error holds advance => exact .error holds advance

lemma Ends.mono {x : EStateM.Result Diagnostic Recorder α} {y : EStateM.Result Diagnostic Recorder β}
    {better : Recorder → Recorder → α → β → Prop} (ends : Ends invariant left right good x y)
    (imp : ∀ left' right' a b, good left' right' a b → better left' right' a b) :
    Ends invariant left right better x y := by
  cases ends with
  | ok holds advance is => exact .ok holds advance (imp _ _ _ _ is)
  | error holds advance => exact .error holds advance

lemma ends_pure (holds : invariant left right) (is : good left right a b) :
    Ends invariant left right good ((pure a : Recording α) left) ((pure b : Recording β) right) :=
  .ok holds (.refl left right) is

lemma ends_get {f : Recorder → Recording α} {g : Recorder → Recording β}
    (next : Ends invariant left right good (f left left) (g right right)) :
    Ends invariant left right good ((get >>= f) left) ((get >>= g) right) := next

lemma ends_throw (holds : invariant left right) :
    Ends invariant left right good ((throw failure : Recording α) left) ((throw failure : Recording β) right) :=
  .error holds (.refl left right)

end Ends

/-! ### Loaders -/

lemma extends_withLoaders (recorder : Recorder) (more : List Loader) : recorder.Extends (recorder.withLoaders more) :=
  ⟨⟨[],by simp [withLoaders]⟩,subset_append_left _ _,le_rfl,rfl,rfl⟩

lemma Parallel.addLoaders (parallel : Parallel parting left right) (distinct : Distinct (left.loaders ++ more))
    (known : ∀ loader ∈ more, parting.graph.UsesUrl loader.url ∧ ∃ name, ⟨name,loader.url⟩ ∈ right.loaders ++ others) :
    Parallel parting (left.withLoaders more) (right.withLoaders others) := by
  have advance := Advance.mk (extends_withLoaders left more) (extends_withLoaders right others)
  obtain ⟨definitions,expressions⟩ := parallel.written advance
  refine { parallel with distinct, known := ?_, loaders := ?_, definitions, expressions }
  · intro loader listed
    exact (mem_append.1 listed).elim (parallel.known loader) fun new => (known loader new).1
  intro loader listed
  rcases mem_append.1 listed with old | new
  · obtain ⟨name,there⟩ := parallel.loaders loader old
    exact ⟨name,advance.right.loaders there⟩
  · exact (known loader new).2

structure SameSlots (recorder later : Recorder) : Prop where
  slots : later.slots = recorder.slots
  nextSlot : later.nextSlot = recorder.nextSlot

lemma SameSlots.refl (recorder : Recorder) : recorder.SameSlots recorder := ⟨rfl,rfl⟩

lemma SameSlots.trans (first : recorder.SameSlots later) (second : later.SameSlots last) : recorder.SameSlots last :=
  ⟨second.slots.trans first.slots,second.nextSlot.trans first.nextSlot⟩

lemma targetOf_ends (parallel : Parallel parting left right) (used : parting.graph.UsesUrl named.url) :
    Ends (Parallel parting) left right (fun left' right' a b => Target.Alike left' right' a b ∧ left.SameSlots left')
      (targetOf named left) (targetOf named right) := by
  obtain ⟨more,grown,listed,distinct,urls⟩ := loaderOf_spec parallel.distinct parting.apart parallel.known used
  obtain ⟨others,grownRight,listedRight⟩ := loaderOf_mem right named.url
  have doneLeft : targetOf named left = .ok ⟨(left.loaderOf named.url).1,named.name⟩ (left.withLoaders more) := by
    rw [withLoaders,← grown]
    rfl
  have doneRight : targetOf named right = .ok ⟨(right.loaderOf named.url).1,named.name⟩ (right.withLoaders others) := by
    rw [← grownRight]
    rfl
  rw [doneLeft,doneRight]
  refine .ok (parallel.addLoaders distinct fun loader new => ?_) ⟨extends_withLoaders ..,extends_withLoaders ..⟩
    ⟨⟨rfl,named.url,listed,listedRight⟩,⟨rfl,rfl⟩⟩
  rw [urls loader new]
  exact ⟨used,_,listedRight⟩

lemma headOf_ends (parallel : Parallel parting left right) (listed : cell ∈ parting.graph.cells) :
    Ends (Parallel parting) left right (fun left' right' a b => Head.Alike left' right' a b ∧ left.SameSlots left')
      (headOf cell left) (headOf cell right) := by
  have same := SameSlots.refl left
  match cell, listed with
  | .array items, _ => exact ends_pure parallel ⟨.array,same⟩
  | .object none properties, _ | .lazy target, _ | .custom target fresh, _ => exact ends_pure parallel ⟨.object,same⟩
  | .object (some maker) properties, listed =>
    refine (targetOf_ends parallel ⟨_,listed,maker,rfl,rfl⟩).bind ?_
    rintro left' right' a b parallel - ⟨alike,same⟩
    exact ends_pure parallel ⟨.member alike,same⟩
  | .function name (some origin) module, listed =>
    refine (targetOf_ends parallel ⟨_,listed,origin.factory,rfl,rfl⟩).bind ?_
    rintro left' right' a b parallel - ⟨alike,same⟩
    exact ends_pure parallel ⟨.closure alike,same⟩
  | .function name none module, _ => exact ends_throw parallel

/-! ### Slots -/

lemma extends_withSlot (recorder : Recorder) (id : CellId) : recorder.Extends (recorder.withSlot id) :=
  ⟨⟨[],by simp [withSlot]⟩,Subset.refl _,le_succ _,rfl,rfl⟩

lemma Parallel.addSlot (parallel : Parallel parting left right) {id : CellId} (there : id < left.graph.cells.length) :
    Parallel parting (left.withSlot id) (right.withSlot (parting.cell id)) := by
  have next := parallel.nextSlot_eq
  obtain ⟨definitions,expressions⟩ := parallel.written
    ⟨extends_withSlot left id,extends_withSlot right (parting.cell id)⟩
  refine { parallel with slots := ?_, taken := ?_, nextSlot := ?_, definitions, expressions }
  · intro other known
    rw [slot?_withSlot_eq,slot?_withSlot_eq]
    by_cases same : id = other
    · rw [if_pos same,if_pos (congrArg _ same),next]
      rfl
    · rw [if_neg same,if_neg fun equal => same (Parting.cell_injective equal),parallel.slots known]
  · intro other slot held
    rw [slot?_withSlot_eq] at held
    split_ifs at held with same
    · cases held
      exact ⟨lt_succ_self _,same ▸ there⟩
    · exact ⟨lt_succ_of_lt (parallel.taken held).1,(parallel.taken held).2⟩
  · refine ⟨le_succ_of_le parallel.nextSlot.1,?_⟩
    change right.nextSlot + 1 = left.nextSlot + 1 + parting.skipped
    rw [parallel.nextSlot.2]
    omega

/-- What waits in two recordings. A slot is taken for each container that waits, and no others since
some were done with. -/
structure PendingAlike (parting : Parting) (done : Nat) (left right : Recorder) (a b : Pending) : Prop where
  allocations : a.allocations.Forall₂ (Entry.Alike parting left right) b.allocations
  waiting : b.waiting = a.waiting.map fun entry => (parting.slot entry.1, entry.2)
  taken : ∀ entry ∈ a.waiting, entry.1 < left.nextSlot ∧ ∀ next ∈ entry.2.parts, parting.Covers next
  balance : a.waiting.length + done = left.nextSlot

section Steps
variable {done : Nat} {a b : Pending} {id : CellId} {cell : Cell} {value : Value}

lemma PendingAlike.mono (alike : PendingAlike parting done left right a b)
    (advance : Advance left right left' right') (same : left'.nextSlot = left.nextSlot) :
    PendingAlike parting done left' right' a b := by
  refine ⟨alike.allocations.imp fun _ _ => entryAlike_mono advance.spreads,alike.waiting,?_,?_⟩
  all_goals rw [same]
  exacts [alike.taken,alike.balance]

lemma PendingAlike.addSlot (id : CellId) (parallel : Parallel parting left right)
    (alike : PendingAlike parting done left right a b)
    (heads : Head.Alike left right headLeft headRight)
    (covered : ∀ next ∈ cell.parts, parting.Covers next) :
    PendingAlike parting done (left.withSlot id) (right.withSlot (parting.cell id))
      { allocations := a.allocations ++ [.allocate left.nextSlot headLeft]
        waiting := (left.nextSlot, cell) :: a.waiting }
      { allocations := b.allocations ++ [.allocate right.nextSlot headRight]
        waiting := (right.nextSlot, cell) :: b.waiting } := by
  have next := parallel.nextSlot_eq
  have spreads := (Advance.mk (extends_withSlot left id) (extends_withSlot right (parting.cell id))).spreads
  constructor
  · refine rel_append (alike.allocations.imp fun _ _ => entryAlike_mono spreads) (.cons ?_ .nil)
    rw [next]
    exact .allocate (lt_succ_self _) (headAlike_mono spreads heads)
  · rw [alike.waiting,next]
    rfl
  · intro entry listed
    rcases mem_cons.1 listed with rfl | old
    · exact ⟨lt_succ_self _,covered⟩
    · exact ⟨lt_succ_of_lt (alike.taken entry old).1,(alike.taken entry old).2⟩
  · change a.waiting.length + 1 + done = left.nextSlot + 1
    rw [← alike.balance]
    omega

def FoundAlike (parting : Parting) (done : Nat) (left right : Recorder) (a b : Leaf × Pending) : Prop :=
  Leaf.Alike parting left right a.1 b.1 ∧ PendingAlike parting done left right a.2 b.2

lemma parts_subset_leadsTo (cell : Cell) : cell.parts ⊆ cell.leadsTo := by cases cell <;> simp [Cell.parts,Cell.leadsTo]

section
variable (parallel : Parallel parting left right) (alike : PendingAlike parting done left right a b)
include parallel alike

lemma containerLeaf_ends (safe : Safe parting left (.ref id)) (found : left.graph.cell? id = some cell) :
    Ends (Parallel parting) left right (FoundAlike parting done)
      (containerLeaf id cell a left) (containerLeaf (parting.cell id) cell b right) := by
  have slots := parallel.slots (safe.knows rfl)
  refine ends_get ?_
  cases held : left.slot? id with
  | some slot =>
    rw [held] at slots
    rw [slots]
    exact ends_pure parallel ⟨.ref (parallel.taken held).1,alike⟩
  | none =>
    rw [held] at slots
    rw [slots]
    refine (headOf_ends parallel (parallel.mem_cells found)).bind ?_
    rintro middleLeft middleRight headLeft headRight parallel advance ⟨heads,same⟩
    have there : id < middleLeft.graph.cells.length := (safe.mono advance.left).there rfl
    have alike := alike.mono advance same.nextSlot
    have covered : ∀ next ∈ cell.parts, parting.Covers next := fun next listed =>
      safe.covers rfl found next (parts_subset_leadsTo cell listed)
    have pending := PendingAlike.addSlot id parallel alike heads covered
    refine .ok (parallel.addSlot there) ⟨extends_withSlot ..,extends_withSlot ..⟩ ⟨?_,pending⟩
    rw [parallel.nextSlot_eq]
    exact .ref (lt_succ_self _)

lemma plainLeaf_ends (safe : Safe parting left value) : Ends (Parallel parting) left right (FoundAlike parting done)
      (plainLeaf value a left) (plainLeaf (parting.value value) b right) := by
  cases value with
  | undefined => exact ends_pure parallel ⟨.undefined,alike⟩
  | null => exact ends_pure parallel ⟨.null,alike⟩
  | boolean value => exact ends_pure parallel ⟨.boolean value,alike⟩
  | number value => exact ends_pure parallel ⟨.number value,alike⟩
  | string value => exact ends_pure parallel ⟨.string value,alike⟩
  | symbol key => exact ends_pure parallel ⟨.symbol key,alike⟩
  | date time => exact ends_pure parallel ⟨.date time,alike⟩
  | node id =>
    refine ends_get ?_
    rw [parallel.document.1,parallel.document.2]
    exact ends_pure parallel ⟨.anchor id,alike⟩
  | ref id =>
    refine ends_get ?_
    rw [parallel.cell? id]
    cases found : left.graph.cell? id with
    | none => exact ends_pure parallel ⟨.undefined,alike⟩
    | some cell =>
      have container : Ends (Parallel parting) left right (FoundAlike parting done)
          ((if cell.isContainer then containerLeaf id cell a else pure (.undefined, a)) left)
          ((if cell.isContainer then containerLeaf (parting.cell id) cell b else
            pure (.undefined, b)) right) := by
        split_ifs
        · exact containerLeaf_ends parallel alike safe found
        · exact ends_pure parallel ⟨.undefined,alike⟩
      cases cell with
      | lazy target =>
        refine (targetOf_ends parallel ⟨_,parallel.mem_cells found,target,rfl,rfl⟩).bind ?_
        rintro left' right' _ _ parallel advance ⟨targets,same⟩
        exact ends_pure parallel ⟨.lazy targets,alike.mono advance same.nextSlot⟩
      | _ => exact container

end

/-! ### Custom objects -/

lemma extends_withCell (recorder : Recorder) (cell : Cell) : recorder.Extends (recorder.withCell cell) :=
  ⟨⟨[cell],rfl⟩,Subset.refl _,le_rfl,rfl,rfl⟩

lemma Parallel.addCell (parallel : Parallel parting left right) (listed : cell ∈ parting.graph.cells)
    (isCopied : cell.isCopied = true) :
    Parallel parting (left.withCell cell) (right.withCell cell) := by
  obtain ⟨copies,cells,copied⟩ := parallel.copies
  obtain ⟨new,cellsLeft,cellsRight⟩ := parallel.cells
  obtain ⟨definitions,expressions⟩ := parallel.written ⟨extends_withCell left cell,extends_withCell right cell⟩
  refine { parallel with
    copies := ⟨copies ++ [cell],?_,?_⟩
    cells := ⟨new ++ [cell],?_,?_⟩
    taken := ?_
    definitions
    expressions }
  · simp [withCell,Graph.add,cells]
  · intro other mem
    rcases mem_append.1 mem with old | added
    · exact copied other old
    · exact mem_singleton.1 added ▸ ⟨listed,isCopied⟩
  · simp [withCell,Graph.add,cellsLeft]
  · simp [withCell,Graph.add,cellsRight]
  · intro id slot held
    refine ⟨(parallel.taken held).1,(parallel.taken held).2.trans_le ?_⟩
    simp [withCell,Graph.add]

lemma Parallel.cell_length (parallel : Parallel parting left right) :
    parting.cell left.graph.cells.length = right.graph.cells.length := by
  obtain ⟨new,cellsLeft,cellsRight⟩ := parallel.cells
  rw [cellsLeft,cellsRight,Parting.cell,if_neg (by simp)]
  simp only [length_append]
  omega

def ReplacedAlike (parting : Parting) (left left' _ : Recorder) (a b : Value) : Prop :=
  b = parting.value a ∧ Safe parting left' a ∧ left.SameSlots left'

lemma copy_ends (parallel : Parallel parting left right) (covered : parting.Covers value)
    (found : left.graph.cellOf? value = some cell) (isCopied : cell.isCopied = true) :
    Ends (Parallel parting) left right (ReplacedAlike parting left)
      (.ok (.ref left.graph.cells.length) (left.withCell cell))
      (.ok (.ref right.graph.cells.length) (right.withCell cell)) := by
  obtain ⟨id,rfl⟩ : ∃ id, value = .ref id := by
    cases value with
    | ref id => exact ⟨id,rfl⟩
    | _ => cases found
  obtain ⟨new,cellsLeft,-⟩ := parallel.cells
  have safe := safe_of_covers parallel covered
  refine .ok (parallel.addCell (parallel.mem_cells found) isCopied) ⟨extends_withCell ..,extends_withCell ..⟩
    ⟨?_,⟨?_,?_,?_⟩,⟨rfl,rfl⟩⟩
  · rw [Parting.value,parallel.cell_length]
  · rintro _ ⟨rfl⟩
    exact .inr (by simp [cellsLeft])
  · rintro _ ⟨rfl⟩
    simp [withCell,Graph.add]
  · rintro _ other ⟨rfl⟩ there
    have same : cell = other := by simpa [withCell,Graph.add,Graph.cell?] using there
    exact same ▸ safe.covers rfl found

lemma replacement_ends (parallel : Parallel parting left right) (fresh : Bool) (covered : parting.Covers value) :
    Ends (Parallel parting) left right (ReplacedAlike parting left)
      (replacement value fresh left) (replacement value fresh right) := by
  have same := parting.value_of_covers covered
  have cells : right.graph.cellOf? value = left.graph.cellOf? value := by simpa [same] using parallel.cellOf? value
  have itself : Ends (Parallel parting) left right (ReplacedAlike parting left) (.ok value left) (.ok value right) :=
    ends_pure parallel ⟨same.symm,safe_of_covers parallel covered,.refl left⟩
  refine ends_get ?_
  rw [cells]
  cases fresh with
  | false => exact itself
  | true =>
    cases found : left.graph.cellOf? value with
    | none => exact itself
    | some cell =>
      cases cell with
      | array items | object maker properties => exact copy_ends parallel covered found rfl
      | _ => exact itself

def ExpandedAlike (parting : Parting) (left left' _ : Recorder) (a b : Value × List CellId) : Prop :=
  b = (parting.value a.1, a.2) ∧ Safe parting left' a.1 ∧ (∀ id ∈ a.2, parting.region id) ∧ left.SameSlots left'

lemma region_of_custom (parallel : Parallel parting left right) (safe : Safe parting left (.ref id))
    (found : left.graph.cell? id = some (.custom target fresh)) : parting.region id := by
  have low := (parallel.lt_of_custom found).trans_le parting.long
  exact (safe.knows rfl).elim (fun covered => covered) fun high => absurd high (Nat.not_le.2 low)

/-- A custom object is passed once at most, so the fuel never runs out. -/
lemma expand_ends (start : Value) (fuelLeft fuelRight : Nat) (parallel : Parallel parting left right)
    (safe : Safe parting left value) (once : passed.Nodup) (regional : ∀ id ∈ passed, parting.region id)
    (enoughLeft : parting.graph.cells.length < fuelLeft + passed.length)
    (enoughRight : parting.graph.cells.length < fuelRight + passed.length) :
    Ends (Parallel parting) left right (ExpandedAlike parting left) (expand start fuelLeft passed value left)
      (expand (parting.value start) fuelRight passed (parting.value value) right) := by
  have few := length_le_of_inside once fun id listed => parting.inside (regional id listed)
  induction fuelLeft generalizing fuelRight left right value passed with
  | zero => omega
  | succ fuelLeft ih =>
    obtain ⟨fuelRight,rfl⟩ := exists_eq_add_one.2 (show 0 < fuelRight by omega)
    have plain : Ends (Parallel parting) left right (ExpandedAlike parting left)
        (.ok (value, passed) left) (.ok (parting.value value, passed) right) :=
      ends_pure parallel ⟨rfl,safe,regional,.refl left⟩
    refine ends_get ?_
    rw [parallel.cellOf? value]
    cases value with
    | ref id =>
      cases found : left.graph.cellOf? (.ref id) with
      | none => exact plain
      | some cell =>
        cases cell with
        | custom target fresh =>
          have covered := region_of_custom parallel safe found
          change Ends _ _ _ _ ((if passed.contains id then _ else _ : Recording _) left)
            ((if passed.contains (parting.cell id) then _ else _ : Recording _) right)
          rw [Parting.cell_of_region covered]
          split_ifs with again
          · refine ends_get ?_
            rw [parallel.shown start]
            exact ends_throw parallel
          · refine (replacement_ends parallel fresh (safe.covers rfl found target mem_cons_self)).bind ?_
            rintro left' right' a _ parallel - ⟨rfl,safe,same⟩
            have onceMore : (passed ++ [id]).Nodup := by simpa using once.concat (mt contains_iff_mem.2 again)
            have regionalMore : ∀ other ∈ passed ++ [id], parting.region other :=
              forall_mem_append.2 ⟨regional,forall_mem_singleton.2 covered⟩
            have longer : (passed ++ [id]).length = passed.length + 1 := length_append
            refine (ih fuelRight parallel safe onceMore regionalMore (by omega) (by omega)
              (length_le_of_inside onceMore fun id listed => parting.inside (regionalMore id listed))).mono ?_
            rintro _ _ a b ⟨equal,safe,regional,still⟩
            exact ⟨equal,safe,regional,same.trans still⟩
        | _ => exact plain
    | _ => exact plain

lemma extends_withAdopted (recorder : Recorder) (passed : List CellId) (slot : Nat) :
    recorder.Extends (recorder.withAdopted passed slot) :=
  ⟨⟨[],by simp [withAdopted]⟩,Subset.refl _,le_rfl,rfl,rfl⟩

section
variable (parallel : Parallel parting left right) (regional : ∀ id ∈ passed, parting.region id)
include parallel regional

lemma Parallel.addAdopted (taken : slot < left.nextSlot) :
    Parallel parting (left.withAdopted passed slot) (right.withAdopted passed (parting.slot slot)) := by
  obtain ⟨definitions,expressions⟩ := parallel.written
    ⟨extends_withAdopted left passed slot,extends_withAdopted right passed (parting.slot slot)⟩
  refine { parallel with slots := ?_, taken := ?_, definitions, expressions }
  · intro id known
    have same : parting.cell id ∈ passed ↔ id ∈ passed := by
      rcases known with covered | high
      · rw [Parting.cell_of_region covered]
      have long := parting.long
      have cell : parting.cell id = id + parting.extra.length := if_neg (Nat.not_lt.2 high)
      refine ⟨fun listed => ?_,fun listed => ?_⟩
      · refine absurd (parting.inside (regional _ listed)) (Nat.not_lt.2 ?_)
        rw [cell]
        exact le_add_right_of_le (long.trans high)
      · exact absurd (parting.inside (regional _ listed)) (Nat.not_lt.2 (long.trans high))
    rw [slot?_withAdopted,slot?_withAdopted,parallel.slots known]
    by_cases listed : id ∈ passed <;> simp [same,listed]
  · intro id other held
    rw [slot?_withAdopted] at held
    split_ifs at held with listed
    · cases held
      exact ⟨taken,(parting.inside (regional id listed)).trans_le parallel.length_le.1⟩
    · exact parallel.taken held

lemma adopt_ends (safe : Safe parting left value) :
    Ends (Parallel parting) left right (fun left' _ _ _ => left'.nextSlot = left.nextSlot)
      (adopt passed value left) (adopt passed (parting.value value) right) := by
  have nothing : Ends (Parallel parting) left right
      (fun left' _ (_ _ : Unit) => left'.nextSlot = left.nextSlot) (.ok () left) (.ok () right) :=
    ends_pure parallel rfl
  cases value with
  | ref id =>
    have slots := parallel.slots (safe.knows rfl)
    cases held : left.slot? id with
    | none =>
      rw [held] at slots
      rw [adopt_eq,Parting.value,adopt_eq]
      simp only [held,slots,Option.map_none]
      exact nothing
    | some slot =>
      rw [held] at slots
      rw [adopt_eq,Parting.value,adopt_eq]
      simp only [held,slots,Option.map_some]
      exact .ok (parallel.addAdopted regional (parallel.taken held).1)
        ⟨extends_withAdopted ..,extends_withAdopted ..⟩ rfl
  | _ => exact nothing

end

lemma leaf_ends (parallel : Parallel parting left right)
    (alike : PendingAlike parting done left right a b) (covered : parting.Covers value) :
    Ends (Parallel parting) left right (FoundAlike parting done) (leaf value a left) (leaf value b right) := by
  have safe := safe_of_covers parallel covered
  have same := parting.value_of_covers covered
  have cells : right.graph.cellOf? value = left.graph.cellOf? value := by simpa [same] using parallel.cellOf? value
  have plain : Ends (Parallel parting) left right (FoundAlike parting done)
      (plainLeaf value a left) (plainLeaf value b right) := by
    simpa [same] using plainLeaf_ends parallel alike safe
  refine ends_get ?_
  rw [cells]
  cases value with
  | ref id =>
    have slots := parallel.slots (safe.knows rfl)
    rw [Parting.cell_of_region (covered id rfl)] at slots
    cases found : left.graph.cellOf? (.ref id) with
    | none => exact plain
    | some cell =>
      cases cell with
      | custom target fresh =>
        dsimp only
        rw [slots]
        cases held : left.slot? id with
        | some slot => exact ends_pure parallel ⟨.ref (parallel.taken held).1,alike⟩
        | none =>
          have long := parallel.length_le
          have expanded := expand_ends (.ref id) (left.graph.cells.length + 2)
            (right.graph.cells.length + 2) parallel safe nodup_nil (by simp)
            (by simp only [length_nil]; omega) (by simp only [length_nil]; omega)
          rw [same] at expanded
          refine expanded.bind ?_
          rintro left' right' ⟨value,passed⟩ _ parallel advance ⟨rfl,safe,regional,same⟩
          refine (plainLeaf_ends parallel (alike.mono advance same.nextSlot) safe).bind ?_
          rintro left'' right'' found foundRight parallel advance foundAlike
          refine (adopt_ends parallel regional (safe.mono advance.left)).bind ?_
          rintro left₃ right₃ _ _ parallel advance nextSlot
          exact ends_pure parallel ⟨leafAlike_mono advance.spreads foundAlike.1, foundAlike.2.mono advance nextSlot⟩
      | _ => exact plain
  | _ => exact plain

end Steps

/-! ### Whole recordings -/

def Abreast (parting : Parting) (left right : Recorder) : Prop := Parallel parting left right ∧ Paid parting.graph left

lemma Parallel.copied (parallel : Parallel parting left right) : parting.graph.Copied left.graph := by
  obtain ⟨copies,cells,copied⟩ := parallel.copies
  refine ⟨copies,?_,fun cell listed => (copied cell listed).2⟩
  rw [← cells,← parallel.document.1]

section Whole
variable {done : Nat} {a b : Pending}

section
variable (abreast : Abreast parting left right) (alike : PendingAlike parting done left right a b)
include abreast alike

lemma leaf_abreast (covered : parting.Covers value) :
    Ends (Abreast parting) left right (FoundAlike parting done) (leaf value a left) (leaf value b right) := by
  have ends := leaf_ends abreast.1 alike covered
  have paid := abreast.2.leaf abreast.1.copied value a
  generalize leaf value a left = doneLeft at ends paid
  generalize leaf value b right = doneRight at ends
  cases ends with
  | ok parallel advance is => exact .ok ⟨parallel,paid⟩ advance is
  | error parallel advance => exact .error ⟨parallel,paid⟩ advance

lemma leaves_ends (values : List Value) (covered : ∀ value ∈ values, parting.Covers value) :
    Ends (Abreast parting) left right (fun left' right' foundLeft foundRight =>
        foundLeft.1.Forall₂ (Leaf.Alike parting left' right') foundRight.1 ∧
          PendingAlike parting done left' right' foundLeft.2 foundRight.2)
      (leaves values a left) (leaves values b right) := by
  induction values generalizing left right a b with
  | nil => exact ends_pure abreast ⟨.nil,alike⟩
  | cons value rest ih =>
    refine (leaf_abreast abreast alike (covered value mem_cons_self)).bind ?_
    rintro left' right' ⟨leafLeft,a⟩ ⟨leafRight,b⟩ abreast - ⟨leafAlike,alike⟩
    refine (ih abreast alike fun other listed => covered other (mem_cons_of_mem _ listed)).bind ?_
    rintro left₂ right₂ ⟨othersLeft,a⟩ ⟨othersRight,b⟩ abreast advance ⟨others,alike⟩
    exact ends_pure abreast ⟨.cons (leafAlike_mono advance.spreads leafAlike) others,alike⟩

lemma bodyOf_ends (cell : Cell) (covered : ∀ value ∈ cell.parts, parting.Covers value) :
    Ends (Abreast parting) left right (fun left' right' foundLeft foundRight =>
    Body.Alike parting left' right' foundLeft.1 foundRight.1 ∧
    PendingAlike parting done left' right' foundLeft.2 foundRight.2) (bodyOf cell a left) (bodyOf cell b right) := by
  refine (leaves_ends abreast alike cell.parts covered).bind ?_
  rintro left' right' ⟨foundLeft,a⟩ ⟨foundRight,b⟩ abreast - ⟨leaves,alike⟩
  have empty : Body.Alike parting left' right' (.properties []) (.properties []) :=
    @Body.Alike.properties _ _ _ [] [] [] .nil
  cases cell with
  | array items => exact ends_pure abreast ⟨.elements leaves,alike⟩
  | function name origin module => exact ends_pure abreast ⟨.captured leaves,alike⟩
  | object maker properties => exact ends_pure abreast ⟨.properties leaves,alike⟩
  | lazy target | custom target fresh => exact ends_pure abreast ⟨empty,alike⟩

end

lemma PendingAlike.take (alike : PendingAlike parting done left right a b) (next : a.waiting = (slot, cell) :: rest) :
    PendingAlike parting (done + 1) left right { a with waiting := rest }
      { b with waiting := rest.map fun entry => (parting.slot entry.1, entry.2) } := by
  refine ⟨alike.allocations,rfl,fun entry listed => ?_,?_⟩
  · exact alike.taken entry (next ▸ mem_cons_of_mem _ listed)
  · have balance := alike.balance
    rw [next,length_cons] at balance
    change rest.length + (done + 1) = left.nextSlot
    omega

structure WrittenAlike (parting : Parting) (left right : Recorder) (a b : List Entry × List Entry) : Prop where
  allocations : a.1.Forall₂ (Entry.Alike parting left right) b.1
  fills : a.2.Forall₂ (Entry.Alike parting left right) b.2

lemma fillAll_ends (fuelLeft fuelRight : Nat) (abreast : Abreast parting left right)
    (alike : PendingAlike parting done left right a b)
    (fills : fillsLeft.Forall₂ (Entry.Alike parting left right) fillsRight)
    (enoughLeft : parting.graph.cells.length < fuelLeft + done)
    (enoughRight : parting.graph.cells.length < fuelRight + done) :
    Ends (Abreast parting) left right (WrittenAlike parting)
      (fillAll fuelLeft a fillsLeft left) (fillAll fuelRight b fillsRight right) := by
  have few : done ≤ parting.graph.cells.length := by
    have paid := abreast.2.few
    have balance := alike.balance
    omega
  induction fuelLeft generalizing fuelRight left right a b done fillsLeft fillsRight with
  | zero => omega
  | succ fuelLeft ih =>
    obtain ⟨fuelRight,rfl⟩ := exists_eq_add_one.2 (show 0 < fuelRight by omega)
    cases waits : a.waiting with
    | nil =>
      have none : b.waiting = [] := by rw [alike.waiting,waits]; rfl
      rw [fillAll,fillAll,waits,none]
      exact ends_pure abreast ⟨alike.allocations,fills⟩
    | cons entry rest =>
      obtain ⟨slot,cell⟩ := entry
      have also : b.waiting = (parting.slot slot, cell) :: rest.map fun entry => (parting.slot entry.1, entry.2) := by
        rw [alike.waiting,waits]
        rfl
      have taken := alike.taken (slot, cell) (waits ▸ mem_cons_self)
      rw [fillAll,fillAll,waits,also]
      refine (bodyOf_ends abreast (alike.take waits) cell taken.2).bind ?_
      rintro left' right' ⟨bodyLeft,a⟩ ⟨bodyRight,b⟩ abreast advance ⟨bodies,alike⟩
      have older := fills.imp fun _ _ => entryAlike_mono advance.spreads
      refine ih fuelRight abreast alike (rel_append older (.cons (.fill ?_ bodies) .nil)) (by omega) (by omega) ?_
      · exact taken.1.trans_le advance.spreads.slots
      · have paid := abreast.2.few
        have balance := alike.balance
        omega

variable (abreast : Abreast parting left right)
include abreast

lemma findAll_ends (covered : parting.Covers value) : Ends (Abreast parting) left right
      (fun left' right' a b => Leaf.Alike parting left' right' a.1 b.1 ∧ WrittenAlike parting left' right' a.2 b.2)
      (findAll value left) (findAll value right) := by
  have nothing : PendingAlike parting left.nextSlot left right {} {} := ⟨.nil,rfl,by simp,by simp⟩
  have long := abreast.1.length_le
  refine ends_get ((leaf_abreast abreast nothing covered).bind ?_)
  rintro left' right' ⟨rootLeft,a⟩ ⟨rootRight,b⟩ abreast - ⟨roots,alike⟩
  refine (fillAll_ends _ _ abreast alike .nil (by omega) (by omega)).bind ?_
  rintro left₂ right₂ writtenLeft writtenRight abreast advance written
  exact ends_pure abreast ⟨leafAlike_mono advance.spreads roots,written⟩

lemma Abreast.write {a b : Leaf × List Entry × List Entry} (roots : Leaf.Alike parting left right a.1 b.1)
    (written : WrittenAlike parting left right a.2 b.2) :
    Abreast parting (left.withWritten a) (right.withWritten b) := by
  have spreads : Spreads left right (left.withWritten a) (right.withWritten b) := ⟨Subset.refl _,Subset.refl _,le_rfl⟩
  have definitions := rel_append (rel_append abreast.1.definitions written.allocations) written.fills
  have expressions := rel_append abreast.1.expressions (.cons roots .nil)
  exact ⟨{ abreast.1 with
    definitions := definitions.imp fun _ _ => entryAlike_mono spreads
    expressions := expressions.imp fun _ _ => leafAlike_mono spreads },abreast.2.copies,abreast.2.few⟩

/-- Two recordings of one value: both go well, or both fail for one reason. -/
lemma record_abreast (covered : parting.Covers value) : (left.record value).1 = (right.record value).1 ∧
      Abreast parting (left.record value).2 (right.record value).2 := by
  have ends := findAll_ends abreast covered
  rw [record_eq,record_eq]
  generalize findAll value left = doneLeft at ends
  generalize findAll value right = doneRight at ends
  cases ends with
  | ok abreast _ is => exact ⟨rfl,abreast.write is.1 is.2⟩
  | error abreast => exact ⟨rfl,abreast⟩

lemma recordAll_abreast (covered : ∀ value ∈ values, parting.Covers value) :
    (left.recordAll values).1 = (right.recordAll values).1 ∧
      Abreast parting (left.recordAll values).2 (right.recordAll values).2 := by
  induction values generalizing left right with
  | nil => exact ⟨rfl,abreast⟩
  | cons value rest ih =>
    obtain ⟨same,next⟩ := record_abreast abreast (covered value mem_cons_self)
    obtain ⟨others,last⟩ := ih next fun other listed => covered other (mem_cons_of_mem _ listed)
    exact ⟨congrArg₂ cons same others,last⟩

lemma extends_of_error (covered : parting.Covers value) (failed : left.record value = (.error failure, later)) :
    left.Extends later := by
  have ends := findAll_ends abreast covered
  rw [record_eq] at failed
  generalize findAll value left = doneLeft at ends failed
  generalize findAll value right = doneRight at ends
  cases ends with
  | ok => cases failed
  | error _ advance =>
    cases failed
    exact advance.left

end Whole
end Recorder

end Payload
end Resumable
