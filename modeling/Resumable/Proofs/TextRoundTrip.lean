import Resumable.Proofs.RoundTrip

/-! Values come back from the text of a payload. What a recorder has recorded is legible, so its text
is read back as it was written, and revives to values like those recorded. -/
namespace Resumable
open Script (spellsWord)
open Script.Grammar (IsPlainName notNames)
variable {c : Char} {text : String} {modules : ModuleTable}

/-! ### Names of loaders -/

lemma Text.isIdentifierPart_of_mem_hexDigits (mem : c ∈ hexDigits n) : isIdentifierPart c := by
  induction n using Nat.strongRecOn with
  | ind n ih =>
    rcases Nat.lt_or_ge n 16 with small | large
    · rw [hexDigits,Nat.toDigits_of_lt_base small,List.mem_singleton] at mem
      subst mem
      clear ih
      decide +revert
    · rw [hexDigits,Nat.toDigits_of_base_le (by decide) large,List.mem_append,List.mem_singleton] at mem
      rcases mem with earlier | rfl
      · exact ih (n / 16) (by omega) earlier
      · have last : n % 16 < 16 := Nat.mod_lt _ (by decide)
        generalize n % 16 = digit at last
        clear ih large
        decide +revert

lemma Digest.isIdentifierPart_of_mem_hexOfText (mem : c ∈ (hexOfText text).toList) : Text.isIdentifierPart c := by
  rw [hexOfText,hex,String.toList_ofList] at mem
  obtain ⟨word,-,here⟩ := List.mem_flatMap.1 mem
  rcases List.mem_append.1 here with zero | digit
  · rw [List.eq_of_mem_replicate zero]
    decide
  · exact Text.isIdentifierPart_of_mem_hexDigits digit

namespace Payload.Recorder

section
variable (url : String) (size : Nat)
include url size

lemma toList_loaderName : (loaderName url size).toList = "load_".toList ++ (Digest.hexOfText url).toList.take size := by
  simp only [loaderName,String.toList_append,String.toList_ofList]

lemma spellsWord_loaderName : spellsWord (loaderName url size) := by
  have all : ∀ c ∈ "load_".toList, Text.isIdentifierPart c := @of_decide_eq_true _ (List.decidableBAll _ _) (by decide)
  rw [spellsWord,toList_loaderName,Bool.and_eq_true,List.all_eq_true]
  refine ⟨rfl,fun c mem => ?_⟩
  rcases List.mem_append.1 mem with fixed | digit
  · exact all c fixed
  · exact Digest.isIdentifierPart_of_mem_hexOfText (List.mem_of_mem_take digit)

lemma isPlainName_loaderName : IsPlainName (loaderName url size) := by
  have others : ∀ word ∈ notNames, word.toList.take 5 ≠ "load_".toList := by decide
  rw [IsPlainName,Bool.eq_false_iff]
  intro listed
  refine others _ (List.contains_iff_mem.1 listed) ?_
  rw [toList_loaderName]
  exact List.take_left' (by decide)

end

/-! ### Legibility -/

variable {graph : Graph} {values : List Value} {recorder : Recorder}

lemma isSome_get?_of_mem (distinct : Distinct recorder.loaders) (listed : loader ∈ recorder.loaders) :
    (Keyed.get? loader.name recorder.written.source.loaders).isSome :=
  Option.isSome_of_eq_some (Recorder.get?_declared distinct.names listed)

/-- Slots fit the counter that numbers them, and positions in a document are exact as numbers. -/
structure Fits (recorder : Recorder) : Prop where
  slots : recorder.nextSlot ≤ UInt32.size
  nodes : recorder.graph.document.nodes.length ≤ 2 ^ 53
  tree : recorder.graph.document.IsTree
  bounded : ∀ {id slot}, recorder.slot? id = some slot → slot < recorder.nextSlot
  distinct : Distinct recorder.loaders

namespace Fits

variable (fits : recorder.Fits) {base : Graph}
include fits

lemma legible_leaf {value : Value} {leaf : Leaf} (shown : recorder.Shows value leaf) :
    leaf.Legible recorder.written.source := by
  cases shown with
  | lazy _ offered => exact isSome_get?_of_mem fits.distinct offered.1
  | container held => exact lt_of_lt_of_le (fits.bounded held) fits.slots
  | node id => exact fun index mem => lt_of_lt_of_le (fits.tree.lt_of_mem_pathTo mem) fits.nodes
  | _ => trivial

lemma legible_leaves {leaves : List Leaf} (described : values.Forall₂ (recorder.Describes base) leaves) :
    ∀ leaf ∈ leaves, leaf.Legible recorder.written.source := by
  induction described with
  | nil => simp
  | cons describes _ ih =>
    refine List.forall_mem_cons.2 ⟨?_,ih⟩
    cases describes with
    | shows _ shown => exact fits.legible_leaf shown
    | missing => trivial

lemma declared_head (shown : recorder.HeadOf cell head) :
    ∀ name ∈ head.loaders, (Keyed.get? name recorder.written.source.loaders).isSome := by
  cases shown with
  | array | object => simp [Head.loaders]
  | member _ offered | closure _ _ offered =>
    intro name named
    rw [Head.loaders,List.mem_singleton] at named
    exact named ▸ isSome_get?_of_mem fits.distinct offered.1

lemma legible_entry {entry : Entry} (defines : recorder.Defines base entry) :
    entry.Legible recorder.written.source := by
  have slot_lt {slot : Nat} {cell : Cell} (contains : recorder.Contains base slot cell) : slot < UInt32.size := by
    obtain ⟨id,-,held,-⟩ := contains
    exact lt_of_lt_of_le (fits.bounded held) fits.slots
  cases defines with
  | makes contains shown => exact ⟨slot_lt contains,fits.declared_head shown⟩
  | fills contains described =>
    exact ⟨slot_lt contains,fun leaf mem => fits.legible_leaves described leaf (Body.leaves_of_subset _ _ mem)⟩

end Fits

lemma ofText_text_of_legible (distinct : Distinct recorder.loaders)
    (legible : ∀ entry ∈ recorder.written.entries, entry.Legible recorder.written.source) :
    ofText recorder.written.text = .ok recorder.parsed := by
  refine ofText_text distinct.names (fun loader mem => ?_) legible
  obtain ⟨n,-,eq⟩ := mem_loaderNames.1 (distinct.named loader mem)
  rw [eq]
  exact ⟨isPlainName_loaderName _ _,spellsWord_loaderName _ _⟩

lemma Recorded.ofText_text (recorded : Recorded graph values recorder) (tree : graph.document.IsTree)
    (cells : graph.cells.length ≤ UInt32.size) (nodes : graph.document.nodes.length ≤ 2 ^ 53) :
    ofText recorder.written.text = .ok recorder.parsed := by
  have few := Nat.le_of_add_right_le recorded.paid.few
  obtain rfl := recorded.graph_eq
  have fits : recorder.Fits := ⟨few.trans cells,nodes,tree,recorded.slotted.taken,recorded.distinct⟩
  refine ofText_text_of_legible recorded.distinct fun entry mem => ?_
  rcases List.mem_append.1 mem with defined | written
  · exact fits.legible_entry (recorded.defined entry defined)
  · obtain ⟨leaf,listed,rfl⟩ := List.mem_map.1 written
    exact fits.legible_leaves recorded.described leaf listed

end Payload.Recorder

/-! ### Graphs that can be written -/

def Graph.has (graph : Graph) : Value → Bool
  | .ref id => id < graph.cells.length
  | .node id => id < graph.document.nodes.length
  | _ => true

/-- Whether all cells can be written and lead nowhere else. -/
def Graph.isClosed (graph : Graph) (roots : List Value) : Bool :=
  roots.all graph.has && graph.cells.all fun cell => cell.isPortable && cell.parts.all graph.has

lemma Graph.portable_of_isClosed {graph : Graph} {roots : List Value}
    (closed : graph.isClosed roots) : graph.Portable roots := by
  simp only [isClosed,Bool.and_eq_true,List.all_eq_true] at closed
  obtain ⟨rootsThere,cells⟩ := closed
  have there {value : Value} (reaches : graph.Reaches roots value) : graph.has value = true := by
    cases reaches with
    | root listed => exact rootsThere _ listed
    | part _ found listed => exact (cells _ (List.mem_of_getElem? found)).2 _ listed
  constructor
  · intro id reaches
    have bound : id < graph.cells.length := by simpa [has] using there reaches
    exact ⟨_,List.getElem?_eq_getElem bound,(cells _ (List.getElem_mem bound)).1⟩
  · intro id reaches
    simpa [has] using there reaches

/-- An array that holds itself, an object that it shares with a function, and keys and strings that
have a meaning of their own in a script. -/
def knot : Graph where
  cells :=
    [.array [.ref 0,.ref 1,.node 0], .object none [("capturedArgs", .ref 0),("__proto__", .string "\"")],
     .function "bound" (some ⟨⟨"m.js","make"⟩,[.ref 1,.ref 3]⟩) none,
     .lazy ⟨"m.js","later"⟩]

def knotModules : ModuleTable := { source := { records := [{ url := "m.js", exports := ["make"] }] } }

lemma knot_needs (needs : knot.Needs roots target) : target = ⟨"m.js","make"⟩ := by
  have all : ∀ cell ∈ knot.cells, ∀ target ∈ cell.maker?, target = ⟨"m.js","make"⟩ := by decide
  obtain ⟨id,cell,-,found,maker⟩ := needs
  exact all cell (List.mem_of_getElem? found) target maker

lemma knot_namesUrl (names : knot.NamesUrl roots url) : url = "m.js" := by
  have all : ∀ cell ∈ knot.cells, ∀ target ∈ cell.named?, target.url = "m.js" := by decide
  obtain ⟨id,cell,target,-,found,named,rfl⟩ := names
  exact all cell (List.mem_of_getElem? found) target named

lemma knotModules_serves (roots : List Value) : knotModules.Serves (knot.Needs roots) := by
  intro urls once needed
  have all : ∀ url ∈ urls, url = "m.js" := by
    intro url listed
    obtain ⟨target,needs,rfl⟩ := needed url listed
    rw [knot_needs needs]
  rcases urls with _ | ⟨first,_ | ⟨second,rest⟩⟩
  · exact ⟨[],rfl,by simp⟩
  · obtain rfl := all first List.mem_cons_self
    refine ⟨[{ url := "m.js", exports := ["make"] }],rfl,?_⟩
    intro entry listed target needs _
    rw [knot_needs needs]
    simp at listed
    subst listed
    rfl
  · have same := (all first (by simp)).trans (all second (by simp)).symm
    simp [same] at once

/-! ### The way there and back -/

open Payload (Recorder Loader)

/-- Values that are recorded one after the other come back from the text of the payload, with all
that they share. Slots are numbered with 32 bits, and the positions on the way to a node are
numbers, so the graph and the document must not be larger than that. -/
theorem recordAll_ofText_isLike {graph : Graph} {values : List Value} {modules : ModuleTable}
    (apart : Digest.TellsApart (graph.NamesUrl values)) (portable : graph.Portable values)
    (tree : graph.document.IsTree) (serves : modules.Serves (graph.Needs values))
    (cells : graph.cells.length ≤ UInt32.size) (nodes : graph.document.nodes.length ≤ 2 ^ 53) :
    ∃ recorder, Recorder.recordAll { graph } values = (values.map fun _ => .ok (), recorder) ∧
      let revived := Revival.ofText recorder.written.text graph.document modules
      revived.errors = [] ∧
        (graph.add (.array values)).2.isLike revived.gathered.2 (.ref (graph.add (.array values)).1)
          revived.gathered.1 = true := by
  obtain ⟨recorder, done, recorded⟩ := Recorder.recordAll_ok apart portable
  have read := recorded.ofText_text tree cells nodes
  exact ⟨recorder, done, Revival.recorded_isLike recorded portable tree read modules serves⟩

theorem knot_comes_back :
    ∃ recorder, Recorder.recordAll { graph := knot } [.string "use strict", .ref 0, .ref 2, .ref 1] =
        ([.ok (), .ok (), .ok (), .ok ()], recorder) ∧
      let revived := Revival.ofText recorder.written.text .empty knotModules
      revived.errors = [] ∧
        (knot.add (.array [.string "use strict", .ref 0, .ref 2, .ref 1])).2.isLike revived.gathered.2
          (.ref 4) revived.gathered.1 = true :=
  recordAll_ofText_isLike (fun a b _ => (knot_namesUrl a).trans (knot_namesUrl b).symm)
    (Graph.portable_of_isClosed (by decide)) Document.isTree_empty (knotModules_serves _) (by decide)
    (by decide)

end Resumable
