import Resumable.Proofs.Renumbering

/-! Recordings that fail. What a failed recording has taken stays taken, but it is not in the payload.
Values that meet nothing of it are recorded as if it had never been tried. -/
namespace Resumable
open List
variable {left right : Recorder}

namespace Payload

/-! ### One recording beside itself -/

def Parting.none (graph : Graph) (whole : graph.IsWhole) (apart : Digest.TellsApart graph.UsesUrl) :
    Parting where
  graph
  whole
  apart
  base := graph.cells
  long := le_rfl
  extra := []
  firstSlot := 0
  skipped := 0
  region id := id < graph.cells.length
  inside low := low
  closed _ found listed := whole _ (List.mem_of_getElem? found) _ listed

namespace Recorder

variable {graph : Graph} {whole : graph.IsWhole} {apart : Digest.TellsApart graph.UsesUrl}
  {recorder start failed : Recorder} {parting : Parting} {slot : Nat} {a b : Entry}

lemma slot_none (slot : Nat) : (Parting.none graph whole apart).slot slot = slot := by simp [Parting.slot,Parting.none]

lemma abreast_start : Abreast (Parting.none graph whole apart) { graph } { graph } := by
  exact ⟨{
    copies := ⟨[],by simp [Parting.none],by simp⟩
    cells := ⟨[],by simp [Parting.none],by simp [Parting.none]⟩
    document := ⟨rfl,rfl⟩
    slots := fun _ => rfl
    taken := by simp [slot?]
    nextSlot := ⟨Nat.zero_le _,rfl⟩
    distinct := distinct_nil
    known := by simp
    loaders := by simp
    definitions := .nil
    expressions := .nil },paid_start graph⟩

/-! ### Where a recording has failed -/

section Failed
variable (grown : start.loaders ⊆ failed.loaders) (same : parting.graph = graph)
  (first : parting.firstSlot = start.nextSlot)
include first

lemma slot_of_taken (taken : slot < start.nextSlot) : parting.slot slot = slot := if_pos (first ▸ taken)

include grown same

lemma leafAlike_of_none {a b : Leaf} (alike : Leaf.Alike (Parting.none graph whole apart) start start a b) :
    Leaf.Alike parting start failed a b := by
  cases alike with
  | @ref slot taken =>
    have ref : Leaf.Alike parting start failed (.ref slot) (.ref (parting.slot slot)) := .ref taken
    rw [slot_of_taken first taken] at ref
    rwa [slot_none]
  | lazy targets => exact .lazy (targetAlike_mono ⟨List.Subset.refl _,grown,le_rfl⟩ targets)
  | anchor id =>
    subst same
    exact .anchor id
  | _ => constructor

lemma bodyAlike_of_none {a b : Body} (alike : Body.Alike (Parting.none graph whole apart) start start a b) :
    Body.Alike parting start failed a b := by
  cases alike with
  | elements leaves => exact .elements (leaves.imp fun _ _ => leafAlike_of_none grown same first)
  | captured leaves => exact .captured (leaves.imp fun _ _ => leafAlike_of_none grown same first)
  | properties leaves => exact .properties (leaves.imp fun _ _ => leafAlike_of_none grown same first)

lemma entryAlike_of_none (alike : Entry.Alike (Parting.none graph whole apart) start start a b) :
    Entry.Alike parting start failed a b := by
  cases alike with
  | @allocate slot _ _ taken heads =>
    have entry : Entry.Alike parting start failed _ _ :=
      .allocate taken (headAlike_mono ⟨List.Subset.refl _,grown,le_rfl⟩ heads)
    rw [slot_of_taken first taken] at entry
    rwa [slot_none]
  | @fill slot _ _ taken bodies =>
    have entry := Entry.Alike.fill taken (bodyAlike_of_none grown same first bodies)
    rw [slot_of_taken first taken] at entry
    rwa [slot_none]
  | value leaves => exact .value (leafAlike_of_none grown same first leaves)

end Failed

/-- After a failure, two recordings run in parallel on what the failure has not touched. -/
lemma abreast_of_failed {after : List Value} (before : Abreast (Parting.none graph whole apart) start start)
    (later : Abreast (Parting.none graph whole apart) failed failed) (extends_ : start.Extends failed)
    (there : ∀ id, .ref id ∈ after → id < graph.cells.length)
    (untouched : ∀ id, graph.Meets after (.ref id) → failed.slot? id = start.slot? id) :
    ∃ parting : Parting, parting.graph = graph ∧ Abreast parting start failed ∧
      ∀ value ∈ after, parting.Covers value := by
  obtain ⟨more,grown⟩ := extends_.graph
  have long : graph.cells.length ≤ start.graph.cells.length := before.1.length_le.1
  let parting : Parting :=
    { graph, whole, apart
      base := start.graph.cells
      long
      extra := more
      firstSlot := start.nextSlot
      skipped := failed.nextSlot - start.nextSlot
      region := fun id => graph.Meets after (.ref id)
      inside := by
        intro id meets
        cases meets with
        | root listed => exact there id listed
        | next _ found listed => exact whole _ (mem_of_getElem? found) id listed
      closed := fun meets found listed => .next meets found listed }
  refine ⟨parting,rfl,⟨{ before.1 with
    cells := ⟨[],by simp [parting],by simp [parting,grown]⟩
    document := ⟨before.1.document.1,later.1.document.1⟩
    slots := ?_
    nextSlot := ⟨le_rfl,?_⟩
    loaders := fun loader listed => ⟨loader.name,extends_.loaders listed⟩
    definitions := ?_
    expressions := ?_ },before.2⟩,?_⟩
  · intro id knows
    rcases knows with met | high
    · rw [Parting.cell_of_region met,untouched id met]
      cases held : start.slot? id with
      | none => rfl
      | some slot =>
        have same : parting.slot slot = slot := slot_of_taken rfl (before.1.taken held).1
        rw [Option.map_some,same]
    · -- Neither has seen the copies that are yet to be made.
      have unheld : start.slot? id = none := by
        refine Option.eq_none_iff_forall_ne_some.2 fun slot held => ?_
        exact absurd (before.1.taken held).2 (Nat.not_lt.2 high)
      have beyond : failed.graph.cells.length ≤ parting.cell id := by
        rw [Parting.cell,if_neg (Nat.not_lt.2 high),grown,length_append]
        exact Nat.add_le_add_right high _
      have unheldRight : failed.slot? (parting.cell id) = none := by
        refine Option.eq_none_iff_forall_ne_some.2 fun slot held => ?_
        exact absurd (later.1.taken held).2 (Nat.not_lt.2 beyond)
      rw [unheld,unheldRight,Option.map_none]
  · exact (Nat.add_sub_cancel' extends_.nextSlot).symm
  · rw [extends_.definitions]
    exact before.1.definitions.imp fun _ _ => entryAlike_of_none extends_.loaders rfl rfl
  · rw [extends_.expressions]
    exact before.1.expressions.imp fun _ _ => leafAlike_of_none extends_.loaders rfl rfl
  · rintro value listed id rfl
    exact .root listed

/-! ### What is written can be read -/

section Legible
variable (steady : Abreast (Parting.none graph whole apart) recorder recorder)
include steady

lemma fits_of_steady (tree : graph.document.IsTree) (cells : graph.cells.length ≤ UInt32.size)
    (nodes : graph.document.nodes.length ≤ 2 ^ 53) : recorder.Fits where
  slots := by
    have paid : recorder.nextSlot + _ ≤ graph.cells.length := steady.2.few
    omega
  nodes := steady.1.document.1 ▸ nodes
  tree := steady.1.document.1 ▸ tree
  bounded held := (steady.1.taken held).1
  distinct := steady.1.distinct

lemma legible_of_alike {a b : Leaf} (fits : recorder.Fits)
    (alike : Leaf.Alike (Parting.none graph whole apart) recorder recorder a b) :
    a.Legible recorder.written.source := by
  cases alike with
  | ref taken => exact taken.trans_le fits.slots
  | lazy targets =>
    obtain ⟨-,url,listed,-⟩ := targets
    exact isSome_get?_of_mem fits.distinct listed
  | anchor id =>
    intro index mem
    have same : recorder.graph.document = graph.document := steady.1.document.1
    rw [show (Parting.none graph whole apart).graph.document = recorder.graph.document from same.symm] at mem
    exact (fits.tree.lt_of_mem_pathTo mem).trans_le fits.nodes
  | _ => trivial

lemma legible_entry_of_alike (fits : recorder.Fits)
    (alike : Entry.Alike (Parting.none graph whole apart) recorder recorder a b) :
    a.Legible recorder.written.source := by
  cases alike with
  | allocate taken heads =>
    refine ⟨taken.trans_le fits.slots,fun name named => ?_⟩
    cases heads with
    | array | object => simp [Head.loaders] at named
    | closure targets | member targets =>
      obtain ⟨-,url,listed,-⟩ := targets
      rw [Head.loaders,mem_singleton] at named
      exact named ▸ isSome_get?_of_mem fits.distinct listed
  | fill taken bodies =>
    have leaves := bodies.leaves.imp fun _ _ alike => And.intro (legible_of_alike steady fits alike) alike
    exact ⟨taken.trans_le fits.slots,((forall₂_and_left _ _).1 leaves).1⟩
  | value leaves => exact legible_of_alike steady fits leaves

lemma ofText_of_steady (tree : graph.document.IsTree) (cells : graph.cells.length ≤ UInt32.size)
    (nodes : graph.document.nodes.length ≤ 2 ^ 53) :
    Payload.ofText recorder.written.text =
      .ok ⟨recorder.loaders.map Loader.declared,recorder.written.entries.map Entry.normal⟩ := by
  have fits := fits_of_steady steady tree cells nodes
  refine ofText_text_of_legible steady.1.distinct fun entry mem => ?_
  rcases mem_append.1 mem with defined | written
  · exact legible_entry_of_alike steady fits (forall₂_same.1 steady.1.definitions entry defined)
  · obtain ⟨leaf,listed,rfl⟩ := mem_map.1 written
    exact legible_of_alike steady fits (forall₂_same.1 steady.1.expressions leaf listed)

end Legible

/-! ### Writes that fail -/

/-- What is recorded later meets nothing that was given a slot. -/
def Spares (graph : Graph) (later : List Value) (before after : Recorder) : Prop :=
  ∀ id, graph.Meets later (.ref id) → after.slot? id = before.slot? id

/-- None of the recordings that fail has taken anything that is met afterwards. -/
def Harmless (graph : Graph) (recorder : Recorder) : List Value → Prop
  | [] => True
  | value :: rest =>
    (∀ failure, (recorder.record value).1 = .error failure → Spares graph rest recorder (recorder.record value).2) ∧
      Harmless graph (recorder.record value).2 rest

variable {values before after : List Value} {value : Value}

lemma covers_of_meets (same : parting.graph = graph) (roots : ∀ value ∈ values, parting.Covers value)
    (meets : graph.Meets values value) : parting.Covers value := by
  subst same
  induction meets with
  | root listed => exact roots _ listed
  | next _ found listed ih =>
    rintro id rfl
    exact parting.closed (ih _ rfl) found listed

lemma Harmless.of_abreast (same : parting.graph = graph) (abreast : Abreast parting start other)
    (roots : ∀ value ∈ values, parting.Covers value) (harmless : Harmless graph other values) :
    Harmless graph start values := by
  induction values generalizing start other with
  | nil => trivial
  | cons value rest ih =>
    obtain ⟨outcome,next⟩ := record_abreast abreast (roots value mem_cons_self)
    have others := fun other listed => roots other (mem_cons_of_mem value listed)
    refine ⟨fun failure failed id meets => ?_,ih next others harmless.2⟩
    have known := covers_of_meets same others meets id rfl
    have kept := harmless.1 failure (outcome ▸ failed) id meets
    have first := abreast.1.slots (.inl known)
    have second := next.1.slots (.inl known)
    rw [Parting.cell_of_region known] at first second
    rw [kept,first] at second
    exact (Option.map_injective (fun _ _ => Parting.slot_injective) second).symm

lemma covers_none (there : ∀ id, .ref id ∈ values → id < graph.cells.length) :
    ∀ value ∈ values, (Parting.none graph whole apart).Covers value := by
  rintro value listed id rfl
  exact there id listed

lemma alike_entries (abreast : Abreast parting left right) :
    left.written.entries.Forall₂ (Entry.Alike parting left right) right.written.entries := by
  refine rel_append abreast.1.definitions ?_
  rw [forall₂_map_left_iff,forall₂_map_right_iff]
  exact abreast.1.expressions.imp fun _ _ => .value

lemma allocatesFrom_of_harmless (steady : Abreast (Parting.none graph whole apart) start start)
    (settled : Settled graph before start) (there : ∀ id, .ref id ∈ values → id < graph.cells.length)
    (harmless : Harmless graph start values) :
    allocatesFrom [] (start.recordAll values).2.written.entries = true := by
  induction values generalizing start before with
  | nil => exact settled.allocates
  | cons value rest ih =>
    have covered : (Parting.none graph whole apart).Covers value := covers_none there value mem_cons_self
    have others := fun id listed => there id (mem_cons_of_mem value listed)
    have next := (record_abreast steady covered).2
    cases outcome : (start.record value).1 with
    | ok => exact ih next (settled.record (Prod.ext outcome rfl)).1 others harmless.2
    | error failure =>
      have extends_ := extends_of_error steady covered (Prod.ext outcome rfl)
      obtain ⟨parting,same,abreast,roots⟩ := abreast_of_failed steady next extends_ others (harmless.1 failure outcome)
      have last := (recordAll_abreast abreast roots).2
      have without := ih steady settled others (harmless.2.of_abreast same abreast roots)
      exact (allocatesFrom_alike (alike_entries last) []).trans without

lemma recordAll_append (recorder : Recorder) (first second : List Value) :
    (recorder.recordAll (first ++ second)).2 = ((recorder.recordAll first).2.recordAll second).2 := by
  induction first generalizing recorder with
  | nil => rfl
  | cons value rest ih => exact ih (recorder.record value).2

lemma agrees_of_abreast (abreast : Abreast parting left right)
    (steadyLeft : Abreast (Parting.none graph whole apart) left left)
    (steadyRight : Abreast (Parting.none graph whole apart) right right) (tree : graph.document.IsTree)
    (cells : graph.cells.length ≤ UInt32.size) (nodes : graph.document.nodes.length ≤ 2 ^ 53)
    (document : Document) (modules : ModuleTable) :
    (Revival.ofText left.written.text document modules).Agrees
      (Revival.ofText right.written.text document modules) := by
  have entries : (left.written.entries.map Entry.normal).Forall₂ (Entry.Alike parting left right)
      (right.written.entries.map Entry.normal) := by
    rw [forall₂_map_left_iff,forall₂_map_right_iff]
    exact (alike_entries abreast).imp fun _ _ => Entry.Alike.normal
  rw [Revival.ofText_of_ok (ofText_of_steady steadyLeft tree cells nodes),
    Revival.ofText_of_ok (ofText_of_steady steadyRight tree cells nodes)]
  exact Revival.ofParsed_agrees ⟨steadyLeft.1.distinct.names,steadyRight.1.distinct.names⟩ entries document modules

end Recorder
end Payload

/-! ### Checks -/

variable {graph : Graph} {values : List Value}

lemma Graph.isWhole_of_has (all : graph.cells.all fun cell => cell.leadsTo.all graph.has) :
    graph.IsWhole := by
  intro cell listed id leads
  simp only [all_eq_true] at all
  simpa [Graph.has] using all cell listed _ leads

lemma Graph.lt_of_has (all : values.all graph.has) (id : CellId) (listed : .ref id ∈ values) :
    id < graph.cells.length := by
  simp only [all_eq_true] at all
  simpa [Graph.has] using all _ listed

def Graph.keepsTo (graph : Graph) (cells : List CellId) (values : List Value) : Bool :=
  (values ++ cells.flatMap fun id => (graph.cell? id).elim [] Cell.leadsTo).all fun value =>
    match value with
    | .ref id => cells.contains id
    | _ => true

lemma Graph.mem_of_keepsTo {cells : List CellId} (keeps : graph.keepsTo cells values) {id : CellId}
    (meets : graph.Meets values (.ref id)) : id ∈ cells := by
  have all : ∀ id, .ref id ∈ values ++ cells.flatMap (fun id => (graph.cell? id).elim [] Cell.leadsTo) →
      id ∈ cells := by
    intro id listed
    exact contains_iff_mem.1 (all_eq_true.1 keeps _ listed)
  generalize same : Value.ref id = value at meets
  induction meets generalizing id with
  | root listed => exact all id (mem_append_left _ (same ▸ listed))
  | @next outer cell _ _ found listed ih =>
    refine all id (mem_append_right _ (mem_flatMap.2 ⟨outer,ih rfl,?_⟩))
    rw [found,same]
    exact listed

open Payload (Recorder allocatesFrom)
open Payload.Recorder (Harmless Spares)

/-- A recording that fails leaves the payload as it was. If what is recorded later meets nothing that
it has taken, everything goes on as if it had never been tried: the same recordings fail, and the
payload is revived to the same. If that is so for all recordings that fail, slots are allocated
before they are used. -/
theorem failed_record_spares_the_payload {graph : Graph} (before : List Value) (value : Value)
    (after : List Value) {start failed : Recorder} {failure : Diagnostic} (whole : graph.IsWhole)
    (there : ∀ id, .ref id ∈ before ++ value :: after → id < graph.cells.length)
    (apart : Digest.TellsApart graph.UsesUrl) (tree : graph.document.IsTree)
    (cells : graph.cells.length ≤ UInt32.size) (nodes : graph.document.nodes.length ≤ 2 ^ 53)
    (reached : (Recorder.recordAll { graph } before).2 = start)
    (fails : start.record value = (.error failure, failed)) :
    failed.definitions = start.definitions ∧ failed.expressions = start.expressions ∧
      (Spares graph after start failed →
        (failed.recordAll after).1 = (start.recordAll after).1 ∧
          ∀ document modules,
            (Revival.ofText (start.recordAll after).2.written.text document modules).Agrees
              (Revival.ofText (failed.recordAll after).2.written.text document modules)) ∧
      (Harmless graph { graph } (before ++ value :: after) →
        allocatesFrom [] (failed.recordAll after).2.written.entries = true) := by
  have early := fun id listed => there id (List.mem_append_left _ listed)
  have late := fun id listed => there id (List.mem_append_right before (List.mem_cons_of_mem _ listed))
  have covered : (Payload.Parting.none graph whole apart).Covers value :=
    Recorder.covers_none there value (by simp)
  have first : Recorder.Abreast (.none graph whole apart) { graph } { graph } := Recorder.abreast_start
  have steady := (Recorder.recordAll_abreast first (Recorder.covers_none early)).2
  rw [reached] at steady
  have next := (Recorder.record_abreast steady covered).2
  rw [fails] at next
  have extends_ := Recorder.extends_of_error steady covered fails
  refine ⟨extends_.definitions, extends_.expressions, fun spared => ?_, fun harmless => ?_⟩
  · obtain ⟨parting, same, abreast, roots⟩ :=
      Recorder.abreast_of_failed steady next extends_ late spared
    obtain ⟨outcomes, last⟩ := Recorder.recordAll_abreast abreast roots
    exact ⟨outcomes.symm, Recorder.agrees_of_abreast last
      (Recorder.recordAll_abreast steady (Recorder.covers_none late)).2
      (Recorder.recordAll_abreast next (Recorder.covers_none late)).2 tree cells nodes⟩
  · have allocates := Recorder.allocatesFrom_of_harmless first (Recorder.settled_start graph) there
      harmless
    rw [Recorder.recordAll_append, reached] at allocates
    change allocatesFrom [] ((start.record value).2.recordAll after).2.written.entries = true at allocates
    rwa [fails] at allocates

/-- An array that cannot be recorded, for it holds a function of unknown origin. It shares one
container with another array. -/
def spoiled : Graph where
  cells :=
    [.array [.ref 1,.ref 2,.ref 3], .array [.ref 1], .object none [("kept", .null)], .function "f" none none,
     .array [.ref 1,.ref 4]]

theorem spoiled_spares_others :
    let start := (Recorder.recordAll { graph := spoiled } [.ref 1]).2
    let failed := (start.record (.ref 0)).2
    (failed.recordAll [.ref 4]).1 = (start.recordAll [.ref 4]).1 ∧
      (∀ document modules,
        (Revival.ofText (start.recordAll [.ref 4]).2.written.text document modules).Agrees
          (Revival.ofText (failed.recordAll [.ref 4]).2.written.text document modules)) ∧
      allocatesFrom [] (failed.recordAll [.ref 4]).2.written.entries = true := by
  have none : ∀ cell ∈ spoiled.cells, cell.named? = none := by decide
  have spared : Spares spoiled [.ref 4] (Recorder.recordAll { graph := spoiled } [.ref 1]).2
      (Recorder.recordAll { graph := spoiled } [.ref 1, .ref 0]).2 := by
    intro id meets
    have kept : ∀ id ∈ [1, 4], Recorder.slot? (Recorder.recordAll { graph := spoiled } [.ref 1, .ref 0]).2 id =
        Recorder.slot? (Recorder.recordAll { graph := spoiled } [.ref 1]).2 id := by decide
    exact kept id (Graph.mem_of_keepsTo (by decide) meets)
  obtain ⟨-, -, later, allocated⟩ := failed_record_spares_the_payload [.ref 1] (.ref 0) [.ref 4]
    (spoiled.isWhole_of_has (by decide)) (spoiled.lt_of_has (by decide))
    (fun ⟨cell, listed, target, named, _⟩ => absurd named (by simp [none cell listed]))
    Document.isTree_empty (by decide) (by decide) rfl (Prod.ext rfl rfl)
  refine ⟨(later spared).1, (later spared).2, allocated ⟨?_, fun _ _ => spared, ?_, trivial⟩⟩
  · exact fun _ failed => nomatch failed
  · exact fun _ failed => nomatch failed

/-- What a recording that fails was the first to meet is never allocated. -/
theorem spoiled_takes_shared :
    let start : Recorder := { graph := spoiled }
    let failed := (start.record (.ref 0)).2
    (failed.recordAll [.ref 2]).1 = (start.recordAll [.ref 2]).1 ∧
      allocatesFrom [] (start.recordAll [.ref 2]).2.written.entries = true ∧
      allocatesFrom [] (failed.recordAll [.ref 2]).2.written.entries = false :=
  ⟨rfl, by decide, by decide⟩

end Resumable
