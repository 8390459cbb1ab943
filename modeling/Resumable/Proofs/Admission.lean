import Resumable.Proofs.Isolation
import Resumable.Proofs.Parallel

/-! Which payloads are revived without a fault: those that are well-formed and whose modules have what
is needed of them. A payload with faults is revived as well; each of its values is there, and what
could not be made of it is undefined. -/
namespace Resumable
open List Option
variable {leaf : Leaf} {named : ExportName}

namespace Payload
open Leaf
variable {parsed : Parsed}

/-- What a payload must be so that nothing is wrong with its entries. -/
structure Parsed.WellFormed (document : Document) (parsed : Parsed) : Prop where
  once : (parsed.entries.filterMap Entry.allocated?).Nodup
  /-- What is filled has been allocated, as something that the body is for. -/
  filled : ∀ {before slot body after}, parsed.entries = before ++ .fill slot body :: after →
    ∃ head, .allocate slot head ∈ before ∧ head.takes body = true
  used : ∀ {before entry after slot}, parsed.entries = before ++ entry :: after →
    .ref slot ∈ entry.leaves → slot ∈ before.filterMap Entry.allocated?
  anchored : ∀ {entry path}, entry ∈ parsed.entries → .anchor path ∈ entry.leaves → (document.resolve? path).isSome

/-! ### The slots that have been made -/

variable {made : List (Nat × Head)} {entry : Entry} {entries before after : List Entry} {slot : Nat}
  {head : Head} {document : Document}

lemma isSome_headAt?_foldl : (headAt? (entries.foldl addMade made) slot).isSome ↔
    (headAt? made slot).isSome ∨ slot ∈ entries.filterMap Entry.allocated? := by
  induction entries generalizing made with
  | nil => simp
  | cons entry rest ih =>
    rw [foldl_cons,ih,headAt?_addMade]
    cases entry with
    | allocate other head =>
      by_cases same : other = slot
      · simp [Entry.allocated?,same]
      · simp [Entry.allocated?,same,Ne.symm same]
    | fill | value => simp [Entry.allocated?]

lemma headAt?_foldl_of_some (known : headAt? made slot = some head) (entries : List Entry) :
    headAt? (entries.foldl addMade made) slot = some head := by
  induction entries generalizing made with
  | nil => exact known
  | cons entry rest ih =>
    apply ih
    rw [headAt?_addMade,known]
    rfl

lemma mem_foldl_addMade (listed : (slot, head) ∈ entries.foldl addMade made) :
    (slot, head) ∈ made ∨ .allocate slot head ∈ entries := by
  induction entries generalizing made with
  | nil => exact .inl listed
  | cons entry rest ih =>
    rcases ih listed with here | later
    · cases entry with
      | allocate other head' =>
        rw [addMade] at here
        split_ifs at here
        · exact .inl here
        · rcases mem_append.1 here with before | added
          · exact .inl before
          · cases mem_singleton.1 added
            exact .inr mem_cons_self
      | fill | value => exact .inl here
    · exact .inr (mem_cons_of_mem _ later)

lemma mem_of_headAt? (known : headAt? made slot = some head) : (slot, head) ∈ made := by
  obtain ⟨entry,found,rfl⟩ := map_eq_some_iff.1 known
  have same : entry.1 = slot := by simpa using find?_some found
  exact same ▸ mem_of_find?_eq_some found

lemma headAt?_of_nodup (once : (entries.filterMap Entry.allocated?).Nodup)
    (listed : .allocate slot head ∈ entries) : headAt? (entries.foldl addMade []) slot = some head := by
  obtain ⟨before,after,rfl⟩ := append_of_mem listed
  have fresh : slot ∉ before.filterMap Entry.allocated? := by
    rw [filterMap_append,filterMap_cons] at once
    intro earlier
    exact disjoint_of_nodup_append once earlier mem_cons_self
  have free : headAt? (before.foldl addMade []) slot = none := by
    rw [← not_isSome_iff_eq_none,isSome_headAt?_foldl]
    simpa [headAt?] using fresh
  rw [foldl_append,foldl_cons]
  apply headAt?_foldl_of_some
  simp [headAt?_addMade,free]

lemma nodup_filterMap_iff {α β : Type} {f : α → Option β} {items : List α} :
    (items.filterMap f).Nodup ↔ ∀ before item after value, items = before ++ item :: after →
      f item = some value → value ∉ before.filterMap f := by
  constructor
  · rintro once before item after value rfl given earlier
    rw [filterMap_append,filterMap_cons,given] at once
    exact disjoint_of_nodup_append once earlier mem_cons_self
  · intro fresh
    induction items using reverseRecOn with
    | nil => simp
    | append_singleton items last ih =>
      have earlier := ih fun before item after value same given =>
        fresh before item (after ++ [last]) value (by simp [same]) given
      rw [filterMap_append]
      apply earlier.append
      · cases known : f last <;> simp [known]
      · intro value member also
        have given : f last = some value := by cases known : f last <;> simp_all
        exact fresh items last [] value rfl given member

/-! ### Faults -/

lemma faultsFrom_eq_nil : faultsFrom document made entries = [] ↔
    ∀ before entry after, entries = before ++ entry :: after →
      entry.faults document (before.foldl addMade made) = [] := by
  induction entries generalizing made with
  | nil => simp [faultsFrom]
  | cons first rest ih =>
    rw [faultsFrom,append_eq_nil_iff,ih]
    constructor
    · rintro ⟨here,later⟩ before entry after split
      rcases before with _ | ⟨other,before⟩
      · cases split
        exact here
      · cases split
        exact later before entry after rfl
    · intro all
      refine ⟨all [] first rest rfl,fun before entry after split => ?_⟩
      exact all (first :: before) entry after (by rw [split]; rfl)

lemma Leaf.faults_eq_nil : leaf.faults document made = [] ↔ (∀ slot, leaf = .ref slot → (headAt? made slot).isSome) ∧
      ∀ path, leaf = .anchor path → (document.resolve? path).isSome := by
  cases leaf with
  | ref slot => by_cases known : (headAt? made slot).isSome <;> simp [faults,known]
  | anchor path => by_cases known : (document.resolve? path).isSome <;> simp [faults,known]
  | _ => simp [faults]

lemma Entry.faults_eq_nil : entry.faults document made = [] ↔
    (∀ slot head, entry = .allocate slot head → headAt? made slot = none) ∧
    (∀ slot body, entry = .fill slot body → ∃ head, headAt? made slot = some head ∧ head.takes body = true) ∧
    ∀ leaf ∈ entry.leaves, leaf.faults document made = [] := by
  cases entry with
  | allocate slot head => cases known : headAt? made slot <;> simp [Entry.faults,Entry.leaves,known]
  | fill slot body =>
    cases known : headAt? made slot with
    | none => simp [Entry.faults,known]
    | some head => by_cases fits : head.takes body <;> simp [Entry.faults,Entry.leaves,known,fits]
  | value leaf => simp [Entry.faults,Entry.leaves]

lemma Parsed.wellFormed_iff : parsed.WellFormed document ↔ faultsFrom document [] parsed.entries = [] := by
  have isMade (before : List Entry) (slot : Nat) :
      (headAt? (before.foldl addMade []) slot).isSome ↔ slot ∈ before.filterMap Entry.allocated? := by
    rw [isSome_headAt?_foldl]
    simp [headAt?]
  rw [faultsFrom_eq_nil]
  constructor
  · intro formed before entry after split
    have earlier : (before.filterMap Entry.allocated?).Nodup := by
      have all := formed.once
      rw [split,filterMap_append] at all
      exact all.of_append_left
    refine Entry.faults_eq_nil.2 ⟨?_,?_,?_⟩
    · rintro slot head rfl
      have fresh := nodup_filterMap_iff.1 formed.once before _ after slot split rfl
      rwa [← isMade,not_isSome_iff_eq_none] at fresh
    · rintro slot body rfl
      obtain ⟨head,listed,takes⟩ := formed.filled split
      exact ⟨head,headAt?_of_nodup earlier listed,takes⟩
    · intro leaf member
      refine faults_eq_nil.2 ⟨?_,?_⟩
      · rintro slot rfl
        exact (isMade before slot).2 (formed.used split member)
      · rintro path rfl
        exact formed.anchored (by simp [split]) member
  · intro fine
    constructor
    · refine nodup_filterMap_iff.2 fun before entry after slot split allocated => ?_
      cases entry with
      | allocate other head =>
        cases allocated
        have free := (Entry.faults_eq_nil.1 (fine before _ after split)).1 _ head rfl
        rw [← isMade,free]
        simp
      | fill | value => cases allocated
    · intro before slot body after split
      obtain ⟨head,known,takes⟩ := (Entry.faults_eq_nil.1 (fine before _ after split)).2.1 slot body rfl
      exact ⟨head,(mem_foldl_addMade (mem_of_headAt? known)).resolve_left not_mem_nil,takes⟩
    · intro before entry after slot split member
      have leaves := (Entry.faults_eq_nil.1 (fine before entry after split)).2.2
      exact (isMade before slot).1 ((faults_eq_nil.1 (leaves _ member)).1 slot rfl)
    · intro entry path listed member
      obtain ⟨before,after,split⟩ := append_of_mem listed
      have leaves := (Entry.faults_eq_nil.1 (fine before entry after split)).2.2
      exact (faults_eq_nil.1 (leaves _ member)).2 path rfl

/-! ### What is needed -/

/-- The modules have all that is allocated with an export. -/
def Parsed.Served (parsed : Parsed) (modules : ModuleTable) : Prop :=
  ∀ {slot head named}, .allocate slot head ∈ parsed.entries → head.export? parsed.loaders = some named →
    ∃ record, modules.outcome parsed.urls named.url = .ok record ∧ record.offers named.name = true

lemma Parsed.mem_urls : url ∈ parsed.urls ↔ ∃ named ∈ parsed.needs, named.url = url := by simp [Parsed.urls]

lemma Parsed.mem_needs (once : (parsed.entries.filterMap Entry.allocated?).Nodup) : named ∈ parsed.needs ↔
      ∃ slot head, .allocate slot head ∈ parsed.entries ∧ head.export? parsed.loaders = some named := by
  constructor
  · intro needed
    obtain ⟨⟨slot,head⟩,listed,offered⟩ := mem_filterMap.1 needed
    exact ⟨slot,head,(mem_foldl_addMade listed).resolve_left (by simp),offered⟩
  · rintro ⟨slot,head,listed,offered⟩
    exact mem_filterMap.2 ⟨_,mem_of_headAt? (headAt?_of_nodup once listed),offered⟩

end Payload

namespace Revival
open Payload
variable {text : String} {parsed : Parsed} {loaders : List (String × String)} {document : Document}
  {made : List (Nat × Head)}

lemma served_iff (once : (parsed.entries.filterMap Entry.allocated?).Nodup) (modules : ModuleTable) :
    parsed.Served modules ↔ (parsed.urls.filterMap fun url => failure? (modules.outcome parsed.urls url)) = [] ∧
        parsed.needs.filterMap (lack? (modules.outcome parsed.urls)) = [] := by
  rw [filterMap_eq_nil_iff,filterMap_eq_nil_iff]
  constructor
  · intro served
    have provided {named : ExportName} (needed : named ∈ parsed.needs) :
        ∃ record, modules.outcome parsed.urls named.url = .ok record ∧ record.offers named.name = true := by
      obtain ⟨slot,head,listed,offered⟩ := (Parsed.mem_needs once).1 needed
      exact served listed offered
    constructor
    · intro url listed
      obtain ⟨named,needed,rfl⟩ := Parsed.mem_urls.1 listed
      obtain ⟨record,loaded,-⟩ := provided needed
      rw [loaded]
      rfl
    · intro named needed
      obtain ⟨record,loaded,offered⟩ := provided needed
      simp [lack?,loaded,offered]
  · rintro ⟨loads,offers⟩ slot head named listed offered
    have needed := (Parsed.mem_needs once).2 ⟨slot,head,listed,offered⟩
    have loaded := loads named.url (Parsed.mem_urls.2 ⟨named,needed,rfl⟩)
    have lacks := offers named needed
    cases known : modules.outcome parsed.urls named.url with
    | error failure =>
      rw [known] at loaded
      cases loaded
    | ok record =>
      refine ⟨record,rfl,?_⟩
      by_contra missing
      simp [lack?,known,missing] at lacks

/-! ### The values -/

section
variable (loaders : List (String × String)) (document : Document) (graph : Graph)
  (place : Nat → CellId) (allocated : List Nat)

/-- What a leaf stands for, given the slots that have been allocated before it and where they lead. -/
inductive Means : Leaf → Value → Prop
  | undefined : Means .undefined .undefined
  | null : Means .null .null
  | boolean (value : Bool) : Means (.boolean value) (.boolean value)
  | number (value : Number) : Means (.number value) (.number value)
  | string (value : String) : Means (.string value) (.string value)
  | symbol (key : String) : Means (.symbol key) (.symbol key)
  | date (time : Number) : Means (.date time) (.date time)
  | ref {slot : Nat} (there : slot ∈ allocated) : Means (.ref slot) (.ref (place slot))
  | early {slot : Nat} (missing : slot ∉ allocated) : Means (.ref slot) .undefined
  | lazy {target : Target} {named : ExportName} {id : CellId}
    (known : target.export? loaders = some named) (found : graph.cell? id = some (.lazy named)) :
    Means (.lazy target) (.ref id)
  | anchor {path : List Nat} {id : NodeId} (found : document.resolve? path = some id) : Means (.anchor path) (.node id)
  | lost {path : List Nat} (missing : document.resolve? path = none) : Means (.anchor path) .undefined

end

section
variable {allocated : List Nat} {graph : Graph} {later : Build} (tracks : Tracks loaders document kept build made)
  (same : ∀ slot, (headAt? made slot).isSome ↔ slot ∈ allocated)
  (lazies : ∀ {id named}, later.graph.cell? id = some (.lazy named) → graph.cell? id = some (.lazy named))
include tracks same lazies

lemma Tracks.means (declared : ∀ name ∈ leaf.loaders, (Keyed.get? name loaders).isSome)
    (keeps : Keeps (build.valueOf leaf).2 later) :
    Means loaders document graph later.place allocated leaf (build.valueOf leaf).1 := by
  cases leaf with
  | ref slot =>
    rcases tracks.slot? slot with ⟨free,missing⟩ | ⟨head,id,cell,known,held,-⟩
    · have early : slot ∉ allocated := by simp [← same,free]
      simpa [Build.valueOf,missing] using Means.early early
    · have there : slot ∈ allocated := by simp [← same,known]
      have after : later.slot? slot = some (.ref id) := keeps.slots (by simp [Build.valueOf,held])
      have found : Means loaders document graph later.place allocated (.ref slot)
        (.ref (later.place slot)) := .ref there
      simpa [Build.valueOf,held,Build.place,after] using found
  | lazy target =>
    obtain ⟨named,known,found⟩ := tracks.exportOf (declared _ mem_cons_self)
    simp only [Build.valueOf,found] at keeps ⊢
    exact .lazy known (lazies (keeps.lazies (cell?_add_new build.graph (.lazy named))))
  | anchor path =>
    obtain rfl := tracks.document_eq
    cases found : build.graph.document.resolve? path with
    | some id => simpa [Build.valueOf,found] using Means.anchor found
    | none => simpa [Build.valueOf,found] using Means.lost found
  | _ => constructor

lemma Tracks.allMean {leaves : List Leaf}
    (declared : ∀ leaf ∈ leaves, ∀ name ∈ leaf.loaders, (Keyed.get? name loaders).isSome)
    (keeps : Keeps (build.valuesOf leaves).2 later) :
    leaves.Forall₂ (Means loaders document graph later.place allocated) (build.valuesOf leaves).1 := by
  induction leaves generalizing build with
  | nil => exact .nil
  | cons leaf rest ih =>
    obtain ⟨here,others⟩ := forall_mem_cons.1 declared
    have after := tracks.afterValue here
    obtain ⟨more,-,grown⟩ := after.valuesOf others
    refine .cons (tracks.means same lazies here ((keeps_grown _ more _).trans (grown ▸ keeps))) (ih after others keeps)

end

/-- The values of a payload, whatever is wrong with it: one for each that was written, in order. -/
structure Answers (parsed : Parsed) (document : Document) (place : Nat → CellId) (revived : Revived) :
    Prop where
  places : ∀ {slot head}, headAt? parsed.made slot = some head →
    ∃ cell, revived.graph.cell? (place slot) = some cell ∧ Makes parsed.loaders head cell
  count : revived.values.length = parsed.values.length
  values : ∀ {before leaf after}, parsed.entries = before ++ .value leaf :: after →
    ∃ value, revived.values[({ parsed with entries := before } : Parsed).values.length]? = some value ∧
      Means parsed.loaders document revived.graph place (before.filterMap Entry.allocated?) leaf value

section
variable (read : Payload.ofText text = .ok parsed) (document : Document) (modules : ModuleTable)
include read

lemma ofText_lazy {id : CellId} (found : (built parsed document).2.graph.cell? id = some (.lazy named)) :
    (Revival.ofText text document modules).graph.cell? id = some (.lazy named) := by
  have same := congrArg (fun graph => graph.cell? id) (ofText_unlinked read document modules)
  simp only [cell?_unlinked,found,map_some,map_eq_some_iff] at same
  obtain ⟨after,there,equal⟩ := same
  cases after <;> simp_all [Cell.unlinked]

lemma ofText_answers :
    Answers parsed document (built parsed document).2.place (Revival.ofText text document modules) := by
  refine ⟨ofText_place read document modules,?_,fun {before leaf after} split => ?_⟩
  · rw [ofText_values read]
    exact length_run _ parsed.entries
  · have declared := declared_of_ofText read
    rw [split] at declared
    have start := tracks_start parsed.loaders document fun _ _ => True
    obtain ⟨tracks,-,-⟩ := start.run (spares_true _) fun entry member => declared entry (mem_append_left _ member)
    have here := declared (.value leaf) (by simp)
    obtain ⟨-,rest,-⟩ := (tracks.afterValue here).run (spares_true _) fun entry member =>
      declared entry (mem_append_right _ (mem_cons_of_mem _ member))
    have last : (built parsed document).2 =
        (((Build.run { graph := { document }, loaders := parsed.loaders } before).2.valueOf leaf).2.run after).2 := by
      rw [built,split,run_append]
      rfl
    refine ⟨_,?_,tracks.means ?_ (ofText_lazy read document modules) here (last ▸ rest)⟩
    · rw [ofText_values read,built,split,run_values_append]
      exact getElem?_append_right (Nat.le_of_eq (length_run _ before)) |>.trans (by
        simp [length_run,Parsed.values])
    · intro slot
      rw [isSome_headAt?_foldl]
      simp [headAt?]

end

/-! ### What is reported -/

def unknownLoader (loader : String) : String := "Unknown loader '" ++ loader ++ "'"

lemma ne_unknownLoader (other : message.toList.head? ≠ some 'U') (loader : String) :
    message ≠ unknownLoader loader := by
  rintro rfl
  rw [show unknownLoader loader = "Unknown loader '" ++ loader ++ "'" from rfl] at other
  simp [String.toList_append] at other

lemma head?_faultsFrom (listed : fault ∈ faultsFrom document made entries) : fault.message.toList.head? ≠ some 'U' := by
  have leaf {made : List (Nat × Head)} {leaf : Leaf} (listed : fault ∈ leaf.faults document made) :
      fault.message.toList.head? ≠ some 'U' := by
    unfold Leaf.faults at listed
    split at listed
    · split_ifs at listed
      · cases listed
      · obtain rfl := mem_singleton.1 listed
        simp [usedEarly,malformed,slotText,String.toList_append]
    · split_ifs at listed
      · cases listed
      · obtain rfl := mem_singleton.1 listed
        simp [Build.noAnchor,String.toList_append]
    · cases listed
  induction entries generalizing made with
  | nil => cases listed
  | cons entry rest ih =>
    rcases mem_append.1 listed with here | later
    · unfold Entry.faults at here
      split at here
      · split_ifs at here
        · obtain rfl := mem_singleton.1 here
          simp [madeTwice,malformed,slotText,String.toList_append]
        · cases here
      · split at here
        · obtain rfl := mem_singleton.1 here
          simp [filledEarly,malformed,slotText,String.toList_append]
        · split_ifs at here
          · obtain ⟨_,-,here⟩ := mem_flatMap.1 here
            exact leaf here
          · obtain rfl := mem_singleton.1 here
            simp [misfit,malformed,slotText,String.toList_append]
      · exact leaf here
    · exact ih later

lemma ofText_known (read : Payload.ofText text = .ok parsed) (document : Document) (modules : ModuleTable)
    (listed : error ∈ (Revival.ofText text document modules).errors) :
    (∃ url ∈ parsed.urls, modules.outcome parsed.urls url = .error error) ∨
      ∀ loader, error.message ≠ unknownLoader loader := by
  rw [ofText_errors read,mem_append,mem_append] at listed
  rcases listed with (fault | failed) | lacking
  · exact .inr (ne_unknownLoader (head?_faultsFrom fault))
  · obtain ⟨url,member,failure⟩ := mem_filterMap.1 failed
    refine .inl ⟨url,member,?_⟩
    cases known : modules.outcome parsed.urls url with
    | ok record => simp [known,failure?] at failure
    | error other =>
      simp only [known,failure?,some.injEq] at failure
      rw [failure]
  · obtain ⟨named,-,lack⟩ := mem_filterMap.1 lacking
    apply Or.inr
    apply ne_unknownLoader
    unfold lack? at lack
    split at lack
    · split_ifs at lack
      cases lack
      simp [ModuleTable.notExported,String.toList_append]
    · cases lack

/-- A payload is revived without a fault exactly if it is read, it is well-formed, and all that it
allocates with an export is served. Whatever is wrong with what is read, there is one value for each
that was written, in order, and no loader is unknown. -/
theorem revival_succeeds_iff (text : String) (document : Document) (modules : ModuleTable) :
    ((Revival.ofText text document modules).errors = [] ↔
      ∃ parsed, Payload.ofText text = .ok parsed ∧ parsed.WellFormed document ∧
        parsed.Served modules) ∧
    ∀ parsed, Payload.ofText text = .ok parsed →
      (∃ place, Answers parsed document place (Revival.ofText text document modules)) ∧
      ∀ error ∈ (Revival.ofText text document modules).errors,
        (∃ url ∈ parsed.urls, modules.outcome parsed.urls url = .error error) ∨
          ∀ loader, error.message ≠ unknownLoader loader := by
  constructor
  · cases read : Payload.ofText text with
    | error failure =>
      rw [ofText_of_error read]
      simp
    | ok parsed =>
      rw [ofText_errors read, List.append_eq_nil_iff, List.append_eq_nil_iff,
        ← Parsed.wellFormed_iff, and_assoc]
      constructor
      · rintro ⟨formed, rest⟩
        exact ⟨parsed, rfl, formed, (served_iff formed.once modules).mpr rest⟩
      · rintro ⟨_, ⟨⟩, formed, served⟩
        exact ⟨formed, (served_iff formed.once modules).mp served⟩
  · intro parsed read
    exact ⟨⟨_, ofText_answers read document modules⟩, fun error => ofText_known read document modules⟩

def branchModules : ModuleTable where
  source := { records := [⟨"a.js",["f","C"],[]⟩,⟨"b.js",["g"],[]⟩] }

/-- A payload without a fault, and one that uses a slot that is not there. -/
theorem branches_admitted :
    (Revival.ofText (branchesText 0) .empty branchModules).errors = [] ∧
    (Revival.ofText (branchesText 9) .empty branchModules).errors ≠ [] ∧
    Payload.ofText (branchesText 9) = .ok (branches 9) ∧
    ∃ place, Answers (branches 9) .empty place (Revival.ofText (branchesText 9) .empty branchModules) := by
  have fine : Payload.ofText (branchesText 0) = .ok (branches 0) := ofText_branches (by decide)
  have read : Payload.ofText (branchesText 9) = .ok (branches 9) := ofText_branches (by decide)
  refine ⟨?_, ?_, read, ((revival_succeeds_iff _ _ _).2 _ read).1⟩
  · have formed : (branches 0).WellFormed .empty := Parsed.wellFormed_iff.mpr (by decide)
    refine (revival_succeeds_iff _ _ _).1.mpr ⟨_, fine, formed, ?_⟩
    exact (served_iff formed.once _).mpr (by decide)
  · intro none
    obtain ⟨parsed, also, formed, -⟩ := (revival_succeeds_iff _ _ _).1.mp none
    cases read.symm.trans also
    have faults : faultsFrom .empty [] (branches 9).entries ≠ [] := by decide
    exact faults (Parsed.wellFormed_iff.mp formed)

end Revival
end Resumable
