import Resumable.Proofs.DeclaredLoaders
import Resumable.Proofs.Entries
import Resumable.Proofs.ReadScript

/-! Modules that fail leave the values alone. What is built is the same whatever the modules are; each
function is linked by what becomes of its own module, and each fault is reported once. -/
namespace Resumable
open List Keyed

/-! ### What a payload needs -/

namespace Payload.Parsed

def made (parsed : Parsed) : List (Nat × Head) := parsed.entries.foldl addMade []

def needs (parsed : Parsed) : List ExportName := parsed.made.filterMap fun entry => entry.2.export? parsed.loaders

def urls (parsed : Parsed) : List String := (parsed.needs.map ExportName.url).eraseDups

end Payload.Parsed

namespace ModuleTable

/-- What becomes of a module when some are loaded together. -/
def outcome (modules : ModuleTable) (urls : List String) (url : String) : LoadOutcome :=
  (get? url (urls.zip (modules.loadAll urls).1)).getD (.error (unfinished url))

lemma length_pollTasks (cache : ModuleTable) (tasks : List Task) : (cache.pollTasks tasks).1.length = tasks.length := by
  induction tasks generalizing cache with
  | nil => rfl
  | cons task rest ih => simp [pollTasks,ih]

lemma length_rounds (fuel : Nat) (cache : ModuleTable) (tasks : List Task) :
    (rounds fuel cache tasks).1.length = tasks.length := by
  induction fuel generalizing cache tasks with
  | zero => rfl
  | succ fuel ih =>
    simp only [rounds]
    split
    · exact length_pollTasks cache tasks
    · rw [ih,length_pollTasks]

lemma length_loadAll (cache : ModuleTable) (urls : List String) : (cache.loadAll urls).1.length = urls.length := by
  simp [loadAll,length_rounds]

end ModuleTable

namespace Revival

def failure? : LoadOutcome → Option Diagnostic
  | .error failure => some failure
  | .ok _ => none

def provider? (outcome : String → LoadOutcome) (target : ExportName) : Option ModuleEntry :=
  match outcome target.url with
  | .ok record => if record.offers target.name then some record else none
  | .error _ => none

/-- The fault of an export that a module lacks though it has loaded. -/
def lack? (outcome : String → LoadOutcome) (target : ExportName) : Option Diagnostic :=
  match outcome target.url with
  | .ok record => if record.offers target.name then none else some (ModuleTable.notExported target)
  | .error _ => none

lemma provider?_eq_some : provider? outcome target = some record ↔
      outcome target.url = .ok record ∧ record.offers target.name = true := by
  unfold provider?
  cases outcome target.url with
  | error failure => simp
  | ok other =>
    by_cases offered : other.offers target.name
    · simp only [offered,if_true,Option.some.injEq,Except.ok.injEq]
      constructor
      · rintro rfl
        exact ⟨rfl,offered⟩
      · exact fun both => both.1
    · simp only [offered,Bool.false_eq_true,if_false,reduceCtorEq,Except.ok.injEq,false_iff]
      rintro ⟨rfl,also⟩
      exact offered also

/-! ### Loading -/

lemma map_get?_zip {α : Type} {names : List String} {values : List α} (once : names.Nodup)
    (lengths : names.length = values.length) :
    names.map (fun name => get? name (names.zip values)) = values.map some := by
  induction names generalizing values with
  | nil =>
    obtain rfl := length_eq_zero_iff.1 lengths.symm
    rfl
  | cons name names ih =>
    cases values with
    | nil => simp at lengths
    | cons value values =>
      obtain ⟨fresh,others⟩ := nodup_cons.1 once
      have here : get? name ((name :: names).zip (value :: values)) = some value := by simp [get?]
      have later : names.map (fun other => get? other ((name :: names).zip (value :: values))) =
          names.map fun other => get? other (names.zip values) := by
        apply map_congr_left
        intro other member
        have apart : name ≠ other := fun same => fresh (same ▸ member)
        simp [get?,apart]
      rw [map_cons,here,later,ih others (Nat.succ.inj lengths),map_cons]

lemma failures_loadAll (modules : ModuleTable) {urls : List String} (once : urls.Nodup) :
    failures (modules.loadAll urls).1 = urls.filterMap fun url => failure? (modules.outcome urls url) := by
  have lengths := (modules.length_loadAll urls).symm
  have outcomes : urls.map (modules.outcome urls) = (modules.loadAll urls).1 := by
    have found := map_get?_zip once lengths
    apply ext_getElem (by simp [lengths])
    intro index inside bound
    have there := congrArg (fun found => found[index]?) found
    simp only [List.getElem?_map,List.getElem?_eq_getElem bound,
      List.getElem?_eq_getElem (lengths ▸ bound),Option.map_some,Option.some.injEq] at there
    simp [ModuleTable.outcome,there]
  conv_lhs => rw [← outcomes]
  rw [failures,filterMap_map]
  rfl

lemma nodup_neededUrls (links : List Link) : (neededUrls links).Nodup := by
  have once (bound : Nat) (urls : List String) (short : urls.length ≤ bound) : urls.eraseDups.Nodup := by
    induction bound generalizing urls with
    | zero =>
      rw [length_eq_zero_iff.1 (Nat.le_zero.1 short)]
      exact nodup_nil
    | succ bound ih =>
      cases urls with
      | nil => exact nodup_nil
      | cons url rest =>
        rw [eraseDups_cons]
        refine nodup_cons.2 ⟨by simp,ih _ ?_⟩
        exact le_trans (length_filter_le _ _) (Nat.le_of_succ_le_succ short)
  exact once _ _ le_rfl

/-! ### Linking -/

variable {results : List (String × LoadOutcome)} {outcome : String → LoadOutcome}

/-- What is known of modules under their URLs. -/
def Tells (results : List (String × LoadOutcome)) (outcome : String → LoadOutcome) : Prop :=
  ∀ url record, get? url results = some (.ok record) ↔ outcome url = .ok record

lemma tells_loadAll (modules : ModuleTable) (urls : List String) :
    Tells (urls.zip (modules.loadAll urls).1) (modules.outcome urls) := by
  intro url record
  unfold ModuleTable.outcome
  cases get? url (urls.zip (modules.loadAll urls).1) with
  | none => simp
  | some result => simp

lemma link_cons (tells : Tells results outcome) (graph : Graph) (first : Link) (rest : List Link) :
    Revival.link results graph (first :: rest) =
      let later := match provider? outcome first.target with
        | some record => linkFunction graph record first.function
        | none => graph
      ((Revival.link results later rest).1,
        (lack? outcome first.target).toList ++ (Revival.link results later rest).2) := by
  cases known : outcome first.target.url with
  | ok record =>
    have found := (tells first.target.url record).2 known
    by_cases offered : record.offers first.target.name <;>
      simp [Revival.link,found,provider?,lack?,known,offered]
  | error failure =>
    have missing : ∀ record, get? first.target.url results ≠ some (.ok record) := by
      intro record found
      rw [(tells first.target.url record).1 found] at known
      cases known
    simp only [Revival.link,provider?,lack?,known]
    rfl

lemma link_errors (tells : Tells results outcome) (graph : Graph) (links : List Link) :
    (Revival.link results graph links).2 = (links.map Link.target).filterMap (lack? outcome) := by
  induction links generalizing graph with
  | nil => rfl
  | cons first rest ih =>
    rw [link_cons tells,map_cons,filterMap_cons]
    cases lack? outcome first.target <;> simp [ih]

end Revival

/-! ### What linking changes -/

def Cell.unlinked : Cell → Cell
  | .function name origin _ => .function name origin none
  | cell => cell

def Graph.unlinked (graph : Graph) : Graph := { graph with cells := graph.cells.map Cell.unlinked }

namespace Revival
open Payload
variable {results : List (String × LoadOutcome)} {outcome : String → LoadOutcome} {graph : Graph}
  {links : List Link} {id : CellId} {cell : Cell} {name : String} {module : Option ModuleEntry}
  {loaders : List (String × String)} {head : Head}

lemma cell?_unlinked (graph : Graph) (id : CellId) :
    graph.unlinked.cell? id = (graph.cell? id).map Cell.unlinked := List.getElem?_map ..

lemma unlinked_linkFunction (graph : Graph) (record : ModuleEntry) (function : Option CellId) :
    (linkFunction graph record function).unlinked = graph.unlinked := by
  cases function with
  | none => rfl
  | some id =>
    simp only [linkFunction]
    split
    · rename_i name origin module found
      have bound : id < graph.cells.length := (List.getElem?_eq_some_iff.1 found).1
      have same : graph.cells[id] = .function name origin module := (List.getElem?_eq_some_iff.1 found).2
      have kept : (graph.cells.set id (.function name origin (some record))).map Cell.unlinked =
          graph.cells.map Cell.unlinked := by
        have inside : id < (graph.cells.map Cell.unlinked).length := by simpa using bound
        have here : (graph.cells.map Cell.unlinked)[id] = Cell.unlinked (.function name origin (some record)) := by
          simp [same,Cell.unlinked]
        rw [map_set,← here,set_getElem_self]
      simp [Graph.unlinked,Graph.set,kept]
    · rfl

lemma unlinked_link (tells : Tells results outcome) (graph : Graph) (links : List Link) :
    (Revival.link results graph links).1.unlinked = graph.unlinked := by
  induction links generalizing graph with
  | nil => rfl
  | cons first rest ih =>
    rw [link_cons tells,ih]
    cases provider? outcome first.target with
    | none => rfl
    | some record => exact unlinked_linkFunction graph record first.function

lemma linkFunction_other (graph : Graph) (record : ModuleEntry) (apart : function ≠ some id) :
    (linkFunction graph record function).cell? id = graph.cell? id := by
  cases function with
  | none => rfl
  | some other =>
    have different : ¬ other = id := fun same => apart (congrArg some same)
    simp only [linkFunction]
    split
    · simp [cell?_set,different]
    · rfl

lemma link_function (tells : Tells results outcome)
    (own : ∀ link ∈ links, link.function = some id → link.target = factory)
    (found : graph.cell? id = some (.function name (some ⟨factory,captured⟩) module)) :
    (Revival.link results graph links).1.cell? id = some (.function name (some ⟨factory,captured⟩)
        (if links.any fun link => link.function == some id then
          (provider? outcome factory).or module else module)) := by
  induction links generalizing graph module with
  | nil => exact found
  | cons first rest ih =>
    have later := fun link member => own link (mem_cons_of_mem first member)
    rw [link_cons tells,any_cons]
    by_cases mine : first.function = some id
    · have target := own first mem_cons_self mine
      rw [target,mine,beq_self_eq_true,Bool.true_or,if_pos rfl]
      cases provided : provider? outcome factory with
      | none =>
        have after := ih later found
        simpa [provided] using after
      | some record =>
        have bound : id < graph.cells.length := (List.getElem?_eq_some_iff.1 found).1
        have linked : (linkFunction graph record (some id)).cell? id =
            some (.function name (some ⟨factory,captured⟩) (some record)) := by
          simp [linkFunction,found,cell?_set,bound]
        have after := ih later linked
        simpa [provided] using after
    · have kept : (match provider? outcome first.target with
          | some record => linkFunction graph record first.function
          | none => graph).cell? id = graph.cell? id := by
        cases provider? outcome first.target with
        | none => rfl
        | some record => exact linkFunction_other graph record mine
      have other : (first.function == some id) = false := by simpa using mine
      rw [other,Bool.false_or]
      exact ih later (kept.trans found)

lemma makes_unlinked : Makes loaders head cell.unlinked ↔ Makes loaders head cell := by
  cases cell with
  | function name origin module =>
    constructor
    · rintro (_ | _ | _ | ⟨known,_,captured,_⟩)
      exact .closure known name captured module
    · rintro (_ | _ | _ | ⟨known,_,captured,_⟩)
      exact .closure known name captured none
  | _ => exact Iff.rfl

/-! ### What is built -/

def built (parsed : Parsed) (document : Document) : List Value × Build :=
  Build.run { graph := { document }, loaders := parsed.loaders } parsed.entries

def Build.place (build : Build) (slot : Nat) : CellId :=
  match build.slot? slot with
  | some (.ref id) => id
  | _ => 0

variable {text : String} {parsed : Parsed}

lemma built_tracks (read : Payload.ofText text = .ok parsed) (document : Document) :
    Tracks parsed.loaders document (fun _ _ => True) (built parsed document).2 parsed.made ∧
      (built parsed document).2.errors = faultsFrom document [] parsed.entries := by
  have run := (tracks_start parsed.loaders document _).run (spares_true _) (declared_of_ofText read)
  exact ⟨run.1,run.2.2⟩

lemma Tracks.neededUrls (tracks : Tracks loaders document kept build made) : neededUrls build.links =
      ((made.filterMap fun entry => entry.2.export? loaders).map ExportName.url).eraseDups := by
  rw [← tracks.targets,map_map]
  rfl

lemma ofText_eq {document : Document} {modules : ModuleTable} :
    Revival.ofText text document modules = match Payload.ofText text with
    | .error failure => { graph := { document }, values := [], errors := [failure], modules }
    | .ok parsed => Revival.ofParsed parsed document modules := rfl

lemma ofText_of_ok (read : Payload.ofText text = .ok parsed) {document : Document} {modules : ModuleTable} :
    Revival.ofText text document modules = Revival.ofParsed parsed document modules := by
  rw [ofText_eq,read]

lemma ofText_of_error {failure : Diagnostic} (read : Payload.ofText text = .error failure)
    {document : Document} {modules : ModuleTable} :
    Revival.ofText text document modules = { graph := { document }, values := [], errors := [failure], modules } := by
  rw [Revival.ofText_eq,read]

variable (read : Payload.ofText text = .ok parsed) (document : Document) (modules : ModuleTable)
include read

lemma ofText_values : (Revival.ofText text document modules).values = (built parsed document).1 := by
  rw [ofText_of_ok read]
  rfl

lemma ofText_graph : (Revival.ofText text document modules).graph =
      (Revival.link (parsed.urls.zip (modules.loadAll parsed.urls).1) (built parsed document).2.graph
        (built parsed document).2.links).1 := by
  have urls : Revival.neededUrls (built parsed document).2.links = parsed.urls :=
    (built_tracks read document).1.neededUrls
  rw [ofText_of_ok read,← urls]
  rfl

/-- First what is wrong with the entries, then the modules that failed, then the exports that are
missing of modules that loaded. -/
lemma ofText_errors : (Revival.ofText text document modules).errors = faultsFrom document [] parsed.entries ++
        (parsed.urls.filterMap fun url => failure? (modules.outcome parsed.urls url)) ++
        parsed.needs.filterMap (lack? (modules.outcome parsed.urls)) := by
  obtain ⟨tracks,errors⟩ := built_tracks read document
  have urls : Revival.neededUrls (built parsed document).2.links = parsed.urls := tracks.neededUrls
  have once : parsed.urls.Nodup := urls ▸ nodup_neededUrls _
  have missing := link_errors (tells_loadAll modules parsed.urls) (built parsed document).2.graph
    (built parsed document).2.links
  rw [tracks.targets] at missing
  rw [ofText_of_ok read,← errors,← failures_loadAll modules once,Parsed.needs,← missing,← urls]
  rfl

lemma ofText_unlinked :
    (Revival.ofText text document modules).graph.unlinked = (built parsed document).2.graph.unlinked := by
  rw [ofText_graph read]
  exact unlinked_link (tells_loadAll modules parsed.urls) _ _

lemma ofText_place (known : headAt? parsed.made slot = some head) :
    ∃ cell, (Revival.ofText text document modules).graph.cell?
        ((built parsed document).2.place slot) = some cell ∧ Makes parsed.loaders head cell := by
  rcases (built_tracks read document).1.slot? slot with ⟨free,_⟩ | ⟨other,id,cell,also,held,found,makes,-⟩
  · rw [free] at known
    cases known
  · cases known.symm.trans also
    have same := congrArg (fun graph => graph.cell? id) (ofText_unlinked read document modules)
    simp only [cell?_unlinked,found,Option.map_some,Option.map_eq_some_iff] at same
    obtain ⟨after,there,equal⟩ := same
    refine ⟨after,?_,?_⟩
    · simpa [Build.place,held] using there
    · rw [← makes_unlinked,equal]
      exact makes_unlinked.2 makes

lemma ofText_function
    (found : (Revival.ofText text document modules).graph.cell? id = some (.function name origin module)) :
    ∃ factory captured, origin = some ⟨factory,captured⟩ ∧
      module = provider? (modules.outcome parsed.urls) factory := by
  obtain ⟨tracks,-⟩ := built_tracks read document
  have same := congrArg (fun graph => graph.cell? id) (ofText_unlinked read document modules)
  simp only [cell?_unlinked,found,Option.map_some,Cell.unlinked] at same
  obtain ⟨before,foundBefore,equal⟩ := Option.map_eq_some_iff.1 same.symm
  cases before with
  | function other origin' module' =>
    simp only [Cell.unlinked,Cell.function.injEq,and_true] at equal
    obtain ⟨rfl,rfl⟩ := equal
    obtain ⟨rfl,factory,captured,rfl,listed⟩ := tracks.unlinked foundBefore
    refine ⟨factory,captured,rfl,?_⟩
    have own : ∀ link ∈ (built parsed document).2.links, link.function = some id → link.target = factory := by
      intro link member function
      obtain ⟨_,_,also⟩ := tracks.linked member function
      cases foundBefore.symm.trans also
      rfl
    have after := link_function (tells_loadAll modules parsed.urls) own foundBefore
    have some : ((built parsed document).2.links.any fun link => link.function == some id) = true :=
      any_eq_true.2 ⟨_,listed,by simp⟩
    rw [← ofText_graph read,found,some,if_pos rfl,Option.or_none] at after
    cases after
    rfl
  | _ => simp [Cell.unlinked] at equal

omit read

/-- What becomes of a payload under some modules, given where its slots lead and what is wrong with
its entries. A closure follows its own module. -/
structure Follows (parsed : Parsed) (place : Nat → CellId) (faults : List Diagnostic)
    (modules : ModuleTable) (revived : Revived) : Prop where
  closures : ∀ {slot target}, headAt? parsed.made slot = some (.closure target) →
    ∃ named name captured module, target.export? parsed.loaders = some named ∧
      revived.graph.cell? (place slot) = some (.function name (some ⟨named,captured⟩) module) ∧
      ∀ record, module = some record ↔
        modules.outcome parsed.urls named.url = .ok record ∧ record.offers named.name = true
  errors : revived.errors = faults ++ (parsed.urls.filterMap fun url => failure? (modules.outcome parsed.urls url)) ++
    parsed.needs.filterMap (lack? (modules.outcome parsed.urls))

lemma ofText_follows (read : Payload.ofText text = .ok parsed) (document : Document) (modules : ModuleTable) :
    Follows parsed (built parsed document).2.place (faultsFrom document [] parsed.entries) modules
      (Revival.ofText text document modules) := by
  refine ⟨fun {slot target} known => ?_,ofText_errors read document modules⟩
  obtain ⟨cell,found,makes⟩ := ofText_place read document modules known
  obtain _ | _ | _ | ⟨offered,name,captured,module⟩ := makes
  obtain ⟨_,_,same,rfl⟩ := ofText_function read document modules found
  cases same
  exact ⟨_,name,captured,_,offered,found,fun record => provider?_eq_some⟩

/-- Modules that fail do not touch the values. Whatever the modules are, the values and the graph are
the same up to the modules that functions are linked to. Each closure is linked exactly if its own
module loads and has its factory. One fault is reported for each module that fails, and one for each
container whose export is missing of a module that loaded. -/
theorem revival_isolates_modules (text : String) (document : Document) :
    (∀ first second : ModuleTable,
      (Revival.ofText text document first).values = (Revival.ofText text document second).values ∧
      (Revival.ofText text document first).graph.unlinked =
        (Revival.ofText text document second).graph.unlinked) ∧
    ∀ parsed, Payload.ofText text = .ok parsed → parsed.urls.Nodup ∧
      ∃ place faults, ∀ modules,
        Follows parsed place faults modules (Revival.ofText text document modules) := by
  constructor
  · intro first second
    cases read : Payload.ofText text with
    | error failure =>
      rw [ofText_of_error read, ofText_of_error read]
      exact ⟨rfl, rfl⟩
    | ok parsed =>
      rw [ofText_values read, ofText_values read, ofText_unlinked read, ofText_unlinked read]
      exact ⟨rfl, rfl⟩
  · intro parsed read
    refine ⟨?_, _, _, ofText_follows read document⟩
    rw [show parsed.urls = neededUrls (built parsed document).2.links from
      (built_tracks read document).1.neededUrls.symm]
    exact nodup_neededUrls _

/-- Two closures and an object, of two modules, in an array that also holds what is in some slot. -/
def branches (last : Nat) : Parsed where
  loaders := [("load_a", "a.js"),("load_b", "b.js")]
  entries :=
    [.allocate 0 (.closure ⟨"load_a","f"⟩),.allocate 1 (.closure ⟨"load_b","g"⟩),
     .allocate 2 (.member ⟨"load_a","C"⟩),.allocate 3 .array,
     .fill 3 (.elements [.ref 0,.ref 1,.ref 2,.ref last]),.value (.ref 3)]

def branchesText (last : Nat) : String :=
  Written.text { loaders := [⟨"load_a","a.js"⟩,⟨"load_b","b.js"⟩], definitions := (branches last).entries }

lemma ofText_branches (small : last < UInt32.size) : Payload.ofText (branchesText last) = .ok (branches last) := by
  have known : ∀ name ∈ ["load_a","load_b"], (get? name [("load_a", "a.js"),("load_b", "b.js")]).isSome := by decide
  apply Payload.ofText_text
  · change ["load_a","load_b"].Nodup
    decide
  · intro loader listed
    simp only [mem_cons,not_mem_nil,or_false] at listed
    rcases listed with rfl | rfl <;> exact ⟨rfl,rfl⟩
  · intro entry listed
    simp only [branches,Written.entries,map_nil,append_nil,mem_cons, not_mem_nil,or_false] at listed
    rcases listed with rfl | rfl | rfl | rfl | rfl | rfl
    case inr.inr.inr.inr.inl =>
      refine ⟨by decide,?_⟩
      simpa [Body.leaves,Leaf.Legible,UInt32.size] using small
    case inr.inr.inr.inr.inr => exact Nat.lt_of_sub_pos (by decide)
    all_goals exact ⟨by decide,fun name named => known name (by simp_all [Head.loaders])⟩

theorem branches_isolated :
    Payload.ofText (branchesText 9) = .ok (branches 9) ∧ (branches 9).urls = ["a.js", "b.js"] ∧
      ∃ place faults, ∀ modules,
        Follows (branches 9) place faults modules (Revival.ofText (branchesText 9) .empty modules) := by
  have read : Payload.ofText (branchesText 9) = .ok (branches 9) := ofText_branches (by decide)
  exact ⟨read, by decide, ((revival_isolates_modules (branchesText 9) .empty).2 _ read).2⟩

end Revival
end Resumable
