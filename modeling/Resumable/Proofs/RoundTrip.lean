import Resumable.Proofs.Admission
import Resumable.Proofs.Anchors
import Resumable.Proofs.Likeness
import Resumable.Proofs.Portable

/-! Values that are recorded and revived are like the values that they were. Each slot of a recording is made and
filled once, so what it becomes holds what the recorded container holds. -/
namespace Resumable
open List

def Graph.Needs (graph : Graph) (roots : List Value) (target : ExportName) : Prop :=
  ∃ id cell, graph.Reaches roots (.ref id) ∧ graph.cell? id = some cell ∧ cell.maker? = some target

/-- Asked for any of the modules that are needed, each once, the table loads them all, and each has
every export that is needed of it. -/
def ModuleTable.Serves (modules : ModuleTable) (needed : ExportName → Prop) : Prop :=
  ∀ urls : List String, urls.Nodup → (∀ url ∈ urls, ∃ target, needed target ∧ target.url = url) →
    ∃ records : List ModuleEntry, (modules.loadAll urls).1 = records.map .ok ∧
      ∀ entry ∈ urls.zip records, ∀ target, needed target → target.url = entry.1 → entry.2.offers target.name = true

lemma exists_of_mem_right {α β : Type} {R : α → β → Prop} {xs : List α} {ys : List β} {y : β}
    (all : xs.Forall₂ R ys) (listed : y ∈ ys) : ∃ x ∈ xs, R x y := by
  obtain ⟨n,bound,rfl⟩ := getElem_of_mem listed
  obtain ⟨lengths,each⟩ := forall₂_iff_get.1 all
  exact ⟨_,get_mem xs ⟨n,lengths ▸ bound⟩,each n (lengths ▸ bound) bound⟩

lemma forall₂_comp {α β γ : Type} {R : α → β → Prop} {S : β → γ → Prop} {T : α → γ → Prop} {xs : List α}
    {ys : List β} {zs : List γ} (first : xs.Forall₂ R ys) (second : ys.Forall₂ S zs)
    (both : ∀ x ∈ xs, ∀ y ∈ ys, ∀ z, R x y → S y z → T x z) : xs.Forall₂ T zs := by
  induction first generalizing zs with
  | nil =>
    cases second
    exact .nil
  | cons here _ ih =>
    obtain _ | ⟨there,rest⟩ := second
    refine .cons (both _ mem_cons_self _ mem_cons_self _ here there) (ih rest fun x inX y inY => ?_)
    exact both x (mem_cons_of_mem _ inX) y (mem_cons_of_mem _ inY)

namespace Payload
variable {document : Document} {made : List (Nat × Head)}

lemma faultsFrom_normal (entries : List Entry) :
    faultsFrom document made (entries.map Entry.normal) = faultsFrom document made entries := by
  induction entries generalizing made with
  | nil => rfl
  | cons entry rest ih =>
    have leaf (leaf : Leaf) : leaf.normal.faults document made = leaf.faults document made := by cases leaf <;> rfl
    have takes (head : Head) (body : Body) : head.takes body.normal = head.takes body := by
      cases head <;> cases body <;> rfl
    rw [map_cons,faultsFrom,faultsFrom,ih]
    cases entry with
    | allocate => rfl
    | fill slot body => simp [Entry.normal,Entry.faults,takes,Recorder.leaves_normal,flatMap_map,leaf,addMade]
    | value => simp [Entry.normal,Entry.faults,leaf,addMade]

namespace Recorder
variable {graph : Graph} {values : List Value} {recorder : Recorder} {slot : Nat} {cell other : Cell} {head : Head}
  {entry : Entry} {leaf : Leaf} {id : CellId}

/-! ### What is written -/

/-- What is read back. -/
def parsed (recorder : Recorder) : Parsed :=
  ⟨recorder.loaders.map Loader.declared,recorder.written.entries.map Entry.normal⟩

lemma get?_declared {loaders : List Loader} (names : (loaders.map Loader.name).Nodup) (listed : loader ∈ loaders) :
    Keyed.get? loader.name (loaders.map Loader.declared) = some loader.url := by
  refine Keyed.get?_of_mem ?_ (mem_map_of_mem listed)
  rw [map_map]
  exact names

section
variable (recorded : Recorded graph values recorder)
include recorded

lemma Recorded.headOf (listed : .allocate slot head ∈ recorder.written.entries)
    (contains : recorder.Contains graph slot cell) : recorder.HeadOf cell head := by
  rcases mem_append.1 listed with listed | listed
  · obtain ⟨there,shown⟩ | _ := recorded.defined _ listed
    exact recorded.toSettled.contained there contains ▸ shown
  · obtain ⟨_,-,⟨⟩⟩ := mem_map.1 listed

variable (portable : graph.Portable values)
include portable

lemma Recorded.allShown {parts : List Value} {leaves : List Leaf}
    (described : parts.Forall₂ (recorder.Describes graph) leaves)
    (reached : ∀ value ∈ parts, graph.Reaches values value) : parts.Forall₂ recorder.Shows leaves := by
  refine forall₂_iff_zip.2 ⟨described.length_eq,fun listed => ?_⟩
  exact .of_describes portable (reached _ (of_mem_zip listed).1) recorded.slotted.taken
    ((forall₂_iff_zip.1 described).2 listed)

lemma Recorded.shown (listed : entry ∈ recorder.written.entries) (mem : leaf ∈ entry.leaves) :
    ∃ value, graph.Reaches values value ∧ recorder.Shows value leaf := by
  rcases mem_append.1 listed with listed | listed
  · cases recorded.defined _ listed with
    | makes => cases mem
    | @fills _ cell _ contains described =>
      obtain ⟨id,-,held,found⟩ := contains
      have reached (value : Value) (inside : value ∈ cell.parts) : graph.Reaches values value :=
        .part (recorded.reached held) (recorded.graph_eq ▸ found) inside
      have shown := recorded.allShown portable described reached
      obtain ⟨value,inside,shows⟩ := exists_of_mem_right shown (Body.leaves_of_subset _ _ mem)
      exact ⟨value,reached value inside,shows⟩
  · obtain ⟨_,expressed,rfl⟩ := mem_map.1 listed
    cases mem_singleton.1 mem
    have shown := recorded.allShown portable recorded.described fun _ => .root
    obtain ⟨value,inside,shows⟩ := exists_of_mem_right shown expressed
    exact ⟨value,.root inside,shows⟩

/-- There is nothing wrong with what is written. -/
lemma Recorded.faultless (tree : graph.document.IsTree) :
    faultsFrom graph.document [] recorder.parsed.entries = [] := by
  refine (faultsFrom_normal _).trans <| faultsFrom_eq_nil.2 fun before entry after split => ?_
  have ordered := recorded.allocates
  have listed : entry ∈ recorder.written.entries := by simp [split]
  rw [split,allocatesFrom_append,Bool.and_eq_true,allocatesFrom,Bool.and_eq_true,Bool.and_eq_true,nil_append] at ordered
  obtain ⟨-,⟨uses,fresh⟩,-⟩ := ordered
  have isMade (slot : Nat) :
      (headAt? (before.foldl addMade []) slot).isSome ↔ slot ∈ before.filterMap Entry.allocated? := by
    rw [isSome_headAt?_foldl]
    simp [headAt?]
  have used {slot : Nat} (mem : slot ∈ entry.uses) : (headAt? (before.foldl addMade []) slot).isSome :=
    (isMade slot).2 (contains_iff_mem.1 (all_eq_true.1 uses slot mem))
  refine Entry.faults_eq_nil.2 ⟨?_,?_,fun leaf mem => Leaf.faults_eq_nil.2 ⟨?_,?_⟩⟩
  · rintro slot head rfl
    rw [← Option.not_isSome_iff_eq_none,isMade]
    simpa [Entry.allocated?] using fresh
  · rintro slot body rfl
    obtain ⟨head,known⟩ := Option.isSome_iff_exists.1 (used mem_cons_self)
    have earlier := (mem_foldl_addMade (mem_of_headAt? known)).resolve_left not_mem_nil
    refine ⟨head,known,?_⟩
    rcases mem_append.1 listed with defined | expressed
    · obtain _ | ⟨contains,described⟩ := recorded.defined _ defined
      have shown : recorder.HeadOf _ head := recorded.headOf (by simp [split,earlier]) contains
      cases shown <;> rfl
    · obtain ⟨_,-,⟨⟩⟩ := mem_map.1 expressed
  · rintro slot rfl
    apply used
    cases entry with
    | allocate => cases mem
    | fill => exact mem_cons_of_mem _ (mem_filterMap.2 ⟨_,mem,rfl⟩)
    | value => cases mem_singleton.1 mem; exact mem_cons_self
  · rintro path rfl
    obtain ⟨value,reached,shown⟩ := recorded.shown portable listed mem
    cases shown with
    | node id =>
      obtain ⟨node,there⟩ := Document.node?_of_lt (portable.nodes reached)
      rw [recorded.graph_eq,tree.resolve?_pathTo there]
      rfl

end

lemma HeadOf.leaves_of {leaves : List Leaf} (shown : recorder.HeadOf cell head)
    (lengths : leaves.length = cell.parts.length) : (Body.of cell leaves).leaves = leaves := by
  cases shown with
  | object | member =>
    refine map_snd_zip (Nat.le_of_eq ?_)
    simpa [Cell.parts] using lengths
  | _ => rfl

end Recorder
end Payload

namespace Revival
open Payload
variable {text : String} {parsed : Parsed} {document : Document} {slot : Nat} {body : Body} {cell made : Cell}
  {before after : List Entry} {head : Head} {loaders : List (String × String)} {results : List Value}

/-! ### What is built -/

/-- A slot that is filled once holds what it is filled with. -/
lemma filled_once (read : Payload.ofText text = .ok parsed) (fine : faultsFrom document [] parsed.entries = [])
    (split : parsed.entries = before ++ .fill slot body :: after) (once : ∀ other, .fill slot other ∉ before ++ after)
    (modules : ModuleTable) : ∃ head id made results, .allocate slot head ∈ parsed.entries ∧
      (built parsed document).2.slot? slot = some (.ref id) ∧
      (built parsed document).2.graph.cell? id = some (filledWith results made body) ∧
      Makes parsed.loaders head made ∧ made.parts = [] ∧ body.leaves.Forall₂ (Means parsed.loaders document
        (Revival.ofText text document modules).graph (built parsed document).2.place
        (before.filterMap Entry.allocated?)) results := by
  have allocates := (Parsed.wellFormed_iff.2 fine).once
  have declared := declared_of_ofText read
  obtain ⟨-,fits,-⟩ := Entry.faults_eq_nil.1 (faultsFrom_eq_nil.1 fine before _ after split)
  obtain ⟨head,known,takes⟩ := fits slot body rfl
  have listed := (mem_foldl_addMade (mem_of_headAt? known)).resolve_left not_mem_nil
  rw [split,filterMap_append,filterMap_cons] at allocates
  rw [split] at declared
  have named : ∀ leaf ∈ body.leaves, ∀ name ∈ leaf.loaders, (Keyed.get? name parsed.loaders).isSome :=
    fun leaf member name named => declared (.fill slot body) (by simp) name (mem_flatMap.2 ⟨leaf,member,named⟩)
  -- until it is filled, the slot holds nothing
  obtain ⟨tracks,-,-⟩ := (tracks_start parsed.loaders document fun other cell => other = slot → cell.parts = []).run
    ⟨fun _ _ _ _ empty _ => empty,fun _ _ fills _ _ _ same => absurd (mem_append_left after (same ▸ fills)) (once _)⟩
    fun entry member => declared entry (mem_append_left _ member)
  obtain ⟨build,reached⟩ : ∃ build, build = (Build.run ⟨{ document },parsed.loaders,[],[],[]⟩ before).2 := ⟨_,rfl⟩
  have done : (built parsed document).2 = ((build.fill slot body).run after).2 := by
    rw [built,split,run_append,reached]
    rfl
  rw [← reached] at tracks
  rcases tracks.slot? slot with ⟨free,-⟩ | ⟨_,id,made,also,held,found,makes,empty⟩
  · cases free.symm.trans known
  cases known.symm.trans also
  have filled := makes.fill held found body
  rw [if_pos takes] at filled
  obtain ⟨more,lazies,grown⟩ := tracks.valuesOf named
  -- and what it is filled with is not touched from then on
  obtain ⟨next,stays⟩ := (tracks.grown lazies _).setCell held (cell?_append found more) makes
    (build.valuesOf body.leaves).1 body (fun other cell => other = slot → cell = filledWith _ made body) (fun _ => rfl)
    fun other _ same => absurd same other
  rw [grown] at filled
  rw [← filled] at next stays
  have apart {other : Head} : .allocate slot other ∉ after := fun again => by
    refine disjoint_of_nodup_append allocates (mem_filterMap.2 ⟨_,listed,rfl⟩) ?_
    exact mem_filterMap.2 ⟨_,again,rfl⟩
  obtain ⟨last,keeps,-⟩ := next.run ⟨fun _ _ makes _ _ same => absurd (same ▸ makes) apart,
      fun _ _ fills _ _ _ same => absurd (mem_append_right before (same ▸ fills)) (once _)⟩
    fun entry member => declared entry (mem_append_right _ (mem_cons_of_mem _ member))
  have kept := (stays.trans keeps).slots held
  rcases last.slot? slot with ⟨-,free⟩ | ⟨_,_,_,-,there,foundLast,-,is⟩
  · cases free.symm.trans kept
  cases kept.symm.trans there
  cases is rfl
  refine ⟨head,id,made,_,by simp [split,listed],done ▸ kept,done ▸ foundLast,makes,empty rfl,?_⟩
  refine tracks.allMean (fun slot => ?_) (ofText_lazy read document modules) named (grown ▸ done ▸ stays.trans keeps)
  rw [isSome_headAt?_foldl]
  simp [headAt?]

variable {graph : Graph} {values : List Value} {recorder : Recorder} {leaves : List Leaf}

lemma make?_unlinked (cell : Cell) : cell.unlinked.make? = cell.make? := by cases cell <;> rfl

lemma parts_unlinked (cell : Cell) : cell.unlinked.parts = cell.parts := by cases cell <;> rfl

lemma export?_of_offers (distinct : Recorder.Distinct recorder.loaders) (offered : recorder.Offers target named) :
    target.export? (recorder.loaders.map Loader.declared) = some named := by
  have url : Keyed.get? target.loader _ = some named.url := Recorder.get?_declared distinct.names offered.1
  simp [Target.export?,url,offered.2]

/-- An empty container that is filled with as much as another one holds becomes of one make with it. -/
lemma make?_filledWith (distinct : Recorder.Distinct recorder.loaders) (shown : recorder.HeadOf cell head)
    (plain : cell.isPortable = true) (makes : Makes (recorder.loaders.map Loader.declared) head made)
    (empty : made.parts = []) (count : results.length = cell.parts.length) (leaves : List Leaf)
    (also : leaves.length = cell.parts.length) :
    ∃ make, cell.make? = some make ∧ (filledWith results made (Body.of cell leaves)).make? = some make ∧
      (filledWith results made (Body.of cell leaves)).parts = results := by
  have object {maker : Option ExportName} {fields : List (String × Value)} (same : cell = .object maker fields) :
      ∃ make, cell.make? = some make ∧ (filledWith results (.object maker []) (Body.of cell leaves)).make? = some make ∧
        (filledWith results (.object maker []) (Body.of cell leaves)).parts = results := by
    subst same
    simp only [Cell.parts,length_map] at count also
    have names : ((fields.map (·.1)).zip leaves).map (·.1) = fields.map (·.1) := map_fst_zip (by simp [also])
    have keys : ((fields.map (·.1)).zip results).map (·.1) = fields.map (·.1) := map_fst_zip (by simp [count])
    have filled : Build.setProperties [] ((fields.map (·.1)).zip results) = (fields.map (·.1)).zip results := by
      have once : (fields.map (·.1)).Nodup := of_decide_eq_true plain
      exact Keyed.foldl_insert _ (by rwa [nil_append,keys])
    refine ⟨_,rfl,?_,?_⟩
    · simp only [filledWith,Body.of,names,filled,Cell.make?,keys]
    · simp only [filledWith,Body.of,names,filled,Cell.parts]
      exact map_snd_zip (by simp [count])
  cases shown with
  | array =>
    cases makes
    cases empty
    exact ⟨.array,rfl,rfl,rfl⟩
  | object =>
    cases makes
    cases map_eq_nil_iff.1 empty
    exact object rfl
  | member _ offered =>
    obtain _ | _ | known := makes
    cases (export?_of_offers distinct offered).symm.trans known
    cases map_eq_nil_iff.1 empty
    exact object rfl
  | closure _ _ offered =>
    obtain _ | _ | _ | known := makes
    cases (export?_of_offers distinct offered).symm.trans known
    cases empty
    exact ⟨_,rfl,rfl,rfl⟩

/-! ### Likeness -/

/-- A value that is reached, and what it is read back as. -/
def Returns (graph : Graph) (values : List Value) (recorder : Recorder) (revived : Revived) (place : Nat → CellId)
    (value result : Value) : Prop :=
  ∃ leaf allocated, graph.Reaches values value ∧ recorder.Shows value leaf ∧
    (∀ slot, leaf = .ref slot → slot ∈ allocated) ∧
    Means recorder.parsed.loaders graph.document revived.graph place allocated leaf result

lemma Returns.matches {left right : Graph} {relation : CellId → CellId → Prop} {value result : Value}
    (returns : Returns graph values recorder revived place value result)
    (recorded : Recorder.Recorded graph values recorder) (portable : graph.Portable values)
    (tree : graph.document.IsTree) (leftCells : ∀ {id cell}, graph.cell? id = some cell → left.cell? id = some cell)
    (rightCells : ∀ {id cell}, revived.graph.cell? id = some cell → right.cell? id = some cell)
    (leftDocument : left.document = graph.document) (rightDocument : right.document = graph.document)
    (slots : ∀ {a slot},
      recorder.slot? a = some slot → Graph.Matches left right relation (.ref a) (.ref (place slot))) :
    Graph.Matches left right relation value result := by
  obtain ⟨leaf,allocated,reached,shown,used,means⟩ := returns
  cases shown with
  | number same | date same =>
    cases means
    exact ⟨_,rfl,by simp [Graph.label?,Graph.same_iff_normal.1 same],by simp⟩
  | node id =>
    obtain ⟨node,there⟩ := Document.node?_of_lt (portable.nodes reached)
    rw [recorded.graph_eq] at means
    cases means with
    | anchor found =>
      cases (tree.resolve?_pathTo there).symm.trans found
      exact ⟨_,rfl,by simp [Graph.label?,leftDocument,rightDocument],by simp⟩
    | lost missing => cases (tree.resolve?_pathTo there).symm.trans missing
  | @lazy _ _ named found offered =>
    cases means with
    | lazy known there =>
      cases (export?_of_offers recorded.distinct offered).symm.trans known
      have here := leftCells (recorded.graph_eq ▸ found)
      exact ⟨.lazy named,by simp [Graph.label?,here],by simp [Graph.label?,rightCells there],by simp⟩
  | container held =>
    cases means with
    | ref => exact slots held
    | early missing => exact absurd (used _ rfl) missing
  | _ =>
    cases means
    exact ⟨_,rfl,rfl,by simp⟩

section
variable (recorded : Recorder.Recorded graph values recorder) (portable : graph.Portable values)
  (tree : graph.document.IsTree) (read : Payload.ofText text = .ok recorder.parsed) (modules : ModuleTable)
include recorded portable tree read

/-- The container of a slot comes back with the same make, and with what its leaves mean. -/
lemma slot_comes_back (held : recorder.slot? a = some slot) : ∃ b cell after make,
    graph.cell? a = some cell ∧ (built recorder.parsed graph.document).2.slot? slot = some (.ref b) ∧
    (Revival.ofText text graph.document modules).graph.cell? b = some after ∧
    cell.make? = some make ∧ after.make? = some make ∧ cell.parts.Forall₂ (Returns graph values recorder
      (Revival.ofText text graph.document modules) (built recorder.parsed graph.document).2.place) after.parts := by
  obtain ⟨cell,found,plain⟩ := portable.cells (recorded.reached held)
  have there : recorder.graph.cell? a = some cell := recorded.graph_eq ▸ found
  have own := portable.not_custom (recorded.reached held)
  have fine := recorded.faultless portable tree
  obtain ⟨leaves,listed,described⟩ := recorded.toSettled.defined_of_slot own there held
  have reached (value : Value) (inside : value ∈ cell.parts) : graph.Reaches values value :=
    .part (recorded.reached held) found inside
  have shown := Recorder.allShown_normal (recorded.allShown portable described reached)
  obtain ⟨before,after,split⟩ := append_of_mem listed
  have entries : recorder.parsed.entries = before.map Entry.normal ++
      .fill slot (Body.of cell (leaves.map Leaf.normal)) ::
        (after ++ recorder.expressions.map Entry.value).map Entry.normal := by
    simp [Recorder.parsed,Written.entries,Recorder.written,split,Entry.normal,Body.of_normal]
  have once : (recorder.parsed.entries.filterMap Entry.filled?).Nodup := by
    have same : Entry.filled? ∘ Entry.normal = Entry.filled? := by
      funext entry
      cases entry <;> rfl
    have numbered := recorded.slotted.numbered
    rw [map_nil,append_nil] at numbered
    rw [Recorder.parsed,filterMap_map,same,Written.entries,filterMap_append]
    simpa [Recorder.written,Entry.filled?,Function.comp_def] using numbered.nodup_iff.2 nodup_range
  rw [entries,filterMap_append,filterMap_cons] at once
  obtain ⟨absent,-⟩ := nodup_cons.1 (nodup_middle.1 once)
  rw [← filterMap_append] at absent
  obtain ⟨head,b,made,results,allocated,place,built,makes,empty,means⟩ := filled_once read fine entries
    (fun other again => absent (mem_filterMap.2 ⟨_,again,rfl⟩)) modules
  have count := shown.length_eq
  have head : recorder.HeadOf cell head := by
    obtain ⟨entry,written,same⟩ := mem_map.1 allocated
    cases entry <;> cases same
    exact recorded.headOf written ⟨a,own,held,there⟩
  have whole := head.leaves_of count.symm
  rw [whole] at means
  obtain ⟨make,isMake,also,parts⟩ := make?_filledWith recorded.distinct head plain makes empty
    (means.length_eq.symm.trans count.symm) (leaves.map Leaf.normal) count.symm
  have last := congrArg (fun graph => graph.cell? b) (ofText_unlinked read graph.document modules)
  simp only [cell?_unlinked,built,Option.map_some,Option.map_eq_some_iff] at last
  obtain ⟨final,foundFinal,equal⟩ := last
  refine ⟨b,cell,final,make,found,place,foundFinal,isMake,?_,?_⟩
  · rw [← make?_unlinked,equal,make?_unlinked,also]
  · rw [← parts_unlinked final,equal,parts_unlinked,parts]
    refine forall₂_comp shown means fun value inside leaf mem _ shows means =>
      ⟨leaf,_,reached value inside,shows,fun slot same => ?_,means⟩
    exact (Parsed.wellFormed_iff.2 fine).used entries (by rwa [Entry.leaves,whole,← same])

lemma values_come_back : values.Forall₂ (Returns graph values recorder (Revival.ofText text graph.document modules)
    (built recorder.parsed graph.document).2.place) (Revival.ofText text graph.document modules).values := by
  have formed := Parsed.wellFormed_iff.2 (recorded.faultless portable tree)
  have answers := ofText_answers read graph.document modules
  have shown := Recorder.allShown_normal (recorded.allShown portable recorded.described fun _ => .root)
  have entries : recorder.parsed.entries = recorder.definitions.map Entry.normal ++
      (recorder.expressions.map Leaf.normal).map Entry.value := by
    simp [Recorder.parsed,Written.entries,Recorder.written,Entry.normal]
  have only (leaves : List Leaf) : Parsed.values
      ⟨recorder.parsed.loaders,recorder.definitions.map Entry.normal ++ leaves.map Entry.value⟩ = leaves := by
    rw [Parsed.values,filterMap_append,filterMap_map,filterMap_eq_nil_iff.2,filterMap_map]
    · exact filterMap_some
    · intro entry listed
      cases recorded.defined entry listed <;> rfl
  generalize recorder.expressions.map Leaf.normal = leaves at *
  have count : recorder.parsed.values = leaves := by rw [← only leaves,← entries]
  rw [forall₂_iff_get] at shown ⊢
  refine ⟨by rw [answers.count,count,shown.1],fun n bound bound' => ?_⟩
  have inside := shown.1 ▸ bound
  have split : recorder.parsed.entries = (recorder.definitions.map Entry.normal ++ (leaves.take n).map Entry.value) ++
      .value leaves[n] :: (leaves.drop (n + 1)).map Entry.value := by
    rw [entries,append_assoc,← map_cons,← map_append,getElem_cons_drop,take_append_drop]
  obtain ⟨result,there,means⟩ := answers.values split
  rw [only,length_take_of_le (Nat.le_of_lt inside),getElem?_eq_getElem bound'] at there
  cases there
  refine ⟨_,_,.root (get_mem _ _),shown.2 n bound inside,fun slot same => ?_,means⟩
  exact formed.used split (mem_singleton.2 same.symm)

lemma served (serves : modules.Serves (graph.Needs values)) : recorder.parsed.Served modules := by
  have needs {slot : Nat} {head : Head} {named : ExportName} (listed : .allocate slot head ∈ recorder.parsed.entries)
      (offered : head.export? recorder.parsed.loaders = some named) : graph.Needs values named := by
    obtain ⟨entry,written,same⟩ := mem_map.1 listed
    cases entry <;> cases same
    rcases mem_append.1 written with defined | expressed
    · obtain ⟨⟨id,-,held,found⟩,shown⟩ | _ := recorded.defined _ defined
      refine ⟨id,_,recorded.reached held,recorded.graph_eq ▸ found,?_⟩
      cases shown with
      | member _ known | closure _ _ known => exact (export?_of_offers recorded.distinct known).symm.trans offered
      | array | object => cases offered
    · obtain ⟨_,-,⟨⟩⟩ := mem_map.1 expressed
  have formed := Parsed.wellFormed_iff.2 (recorded.faultless portable tree)
  have once : recorder.parsed.urls.Nodup := by
    rw [Parsed.urls,Parsed.needs,← (built_tracks read graph.document).1.neededUrls]
    exact nodup_neededUrls _
  obtain ⟨records,loaded,offers⟩ := serves recorder.parsed.urls once fun url listed => by
    obtain ⟨named,needed,rfl⟩ := Parsed.mem_urls.1 listed
    obtain ⟨slot,head,listed,offered⟩ := (Parsed.mem_needs formed.once).1 needed
    exact ⟨named,needs listed offered,rfl⟩
  intro slot head named listed offered
  have lengths := modules.length_loadAll recorder.parsed.urls
  have urls := map_fst_zip (Nat.le_of_eq lengths.symm)
  have asked := Parsed.mem_urls.2 ⟨named,(Parsed.mem_needs formed.once).2 ⟨slot,head,listed,offered⟩,rfl⟩
  rw [loaded,length_map] at lengths
  rw [← map_fst_zip (Nat.le_of_eq lengths.symm)] at asked
  obtain ⟨⟨_,record⟩,entry,same⟩ := mem_map.1 asked
  cases same
  have found : Keyed.get? named.url (recorder.parsed.urls.zip (modules.loadAll recorder.parsed.urls).1) =
      some (.ok record) := by
    refine Keyed.get?_of_mem (urls.symm ▸ once) ?_
    rw [loaded,zip_map_right]
    exact mem_map.2 ⟨_,entry,rfl⟩
  exact ⟨record,by rw [ModuleTable.outcome,found]; rfl,offers _ entry _ (needs listed offered) rfl⟩

/-- What is recorded comes back without a fault, and like what it was. -/
lemma recorded_isLike (serves : modules.Serves (graph.Needs values)) :
    let revived := Revival.ofText text graph.document modules
    revived.errors = [] ∧ (graph.add (.array values)).2.isLike revived.gathered.2
      (.ref (graph.add (.array values)).1) revived.gathered.1 = true := by
  have fine := recorded.faultless portable tree
  obtain ⟨loads,offers⟩ := (served_iff (Parsed.wellFormed_iff.2 fine).once modules).1
    (served recorded portable tree read modules serves)
  refine ⟨by rw [ofText_errors read,loads,offers]; simpa using fine,?_⟩
  have tracks := (built_tracks read graph.document).1
  have comesBack {a slot : Nat} (held : recorder.slot? a = some slot) :=
    slot_comes_back recorded portable tree read modules held
  have document := (congrArg Graph.document (ofText_unlinked read graph.document modules)).trans tracks.document_eq
  have onlyValues := values_come_back recorded portable tree read modules
  generalize Revival.ofText text graph.document modules = revived at *
  generalize (built recorder.parsed graph.document).2 = build at *
  obtain ⟨relation,is⟩ : ∃ relation : CellId → CellId → Prop, ∀ a b, relation a b ↔
      a = graph.cells.length ∧ b = revived.graph.cells.length ∨
        ∃ slot, recorder.slot? a = some slot ∧ build.slot? slot = some (.ref b) := ⟨_,fun _ _ => Iff.rfl⟩
  have inside {a b slot : Nat} (held : recorder.slot? a = some slot) (place : build.slot? slot = some (.ref b)) :
      a ≠ graph.cells.length ∧ b ≠ revived.graph.cells.length := by
    obtain ⟨_,_,_,_,found,also,there,-⟩ := comesBack held
    cases place.symm.trans also
    exact ⟨Nat.ne_of_lt (List.getElem?_eq_some_iff.1 found).1,Nat.ne_of_lt (List.getElem?_eq_some_iff.1 there).1⟩
  have slots {a slot : Nat} (held : recorder.slot? a = some slot) : Graph.Matches (graph.add (.array values)).2
      revived.gathered.2 relation (.ref a) (.ref (build.place slot)) := by
    obtain ⟨b,_,_,_,found,place,there,make,also,-⟩ := comesBack held
    have same : build.place slot = b := by simp [Build.place,place]
    rw [same]
    exact ⟨.container,Graph.label_of_make (cell?_append found _) make,Graph.label_of_make (cell?_append there _) also,
      fun _ => ⟨a,b,rfl,rfl,(is a b).2 (.inr ⟨slot,held,place⟩)⟩⟩
  have matched {value result : Value} (returns : Returns graph values recorder revived build.place value result) :=
    returns.matches recorded portable tree (cell?_append · [.array values]) (cell?_append · [.array revived.values]) rfl
      document slots
  refine Graph.Likeness.isLike (⟨?_,?_,?_⟩ : Graph.Likeness _ _ relation) ?_
  · intro x y z first second
    rcases (is x y).1 first with ⟨rfl,rfl⟩ | ⟨slot,held,place⟩ <;>
      rcases (is _ z).1 second with ⟨outer,rfl⟩ | ⟨slot',held',place'⟩
    · rfl
    · exact absurd rfl (inside held' place').1
    · exact absurd outer (inside held place).1
    · cases held.symm.trans held'
      cases place.symm.trans place'
      rfl
  · intro x y z first second
    rcases (is x z).1 first with ⟨rfl,rfl⟩ | ⟨slot,held,place⟩ <;>
      rcases (is y _).1 second with ⟨rfl,outer⟩ | ⟨slot',held',place'⟩
    · rfl
    · exact absurd rfl (inside held' place').2
    · exact absurd outer (inside held place).2
    · cases tracks.apart place place'
      have own {a slot : Nat} (held : recorder.slot? a = some slot) := portable.not_custom (recorded.reached held)
      exact recorded.slotted.apart (own held) (own held') held held'
  · intro x y related
    rcases (is x y).1 related with ⟨rfl,rfl⟩ | ⟨slot,held,place⟩
    · exact ⟨_,_,.array,cell?_add_new graph _,cell?_add_new revived.graph _,rfl,rfl,onlyValues.imp fun _ _ => matched⟩
    · obtain ⟨_,cell,after,make,found,also,there,made,same,parts⟩ := comesBack held
      cases place.symm.trans also
      exact ⟨cell,after,make,cell?_append found _,cell?_append there _,made,same,parts.imp fun _ _ => matched⟩
  · exact ⟨.container,Graph.label_of_make (cell?_add_new graph _) rfl,
      Graph.label_of_make (cell?_add_new revived.graph _) rfl,fun _ => ⟨_,_,rfl,rfl,(is _ _).2 (.inl ⟨rfl,rfl⟩)⟩⟩

end
end Revival
end Resumable
