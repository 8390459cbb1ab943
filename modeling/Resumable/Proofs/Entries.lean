import Resumable.Proofs.Keyed
import Resumable.Proofs.Spelling
import Resumable.Revival

/-! What the entries of a payload build, whatever they say. The containers that are made depend on the
entries alone, and so does what is reported on the way: whether an entry is at fault is a matter of the
slots that were made before it. -/
namespace Resumable
open List Keyed

namespace Payload

/-- Whether a container that is made so can be filled so. -/
def Head.takes : Head → Body → Bool
  | .array, .elements _ | .object, .properties _ | .member _, .properties _ => true
  | .closure _, .captured _ => true
  | _, _ => false

def Target.export? (loaders : List (String × String)) (target : Target) : Option ExportName :=
  (get? target.loader loaders).map (⟨·,target.name⟩)

def Head.export? (loaders : List (String × String)) : Head → Option ExportName
  | .closure target | .member target => target.export? loaders
  | _ => none

def Entry.leaves : Entry → List Leaf
  | .allocate _ _ => []
  | .fill _ body => body.leaves
  | .value leaf => [leaf]

def headAt? (made : List (Nat × Head)) (slot : Nat) : Option Head := (made.find? fun entry => entry.1 == slot).map (·.2)

/-- The slots that have been made after one more entry. A slot is not made twice. -/
def addMade (made : List (Nat × Head)) : Entry → List (Nat × Head)
  | .allocate slot head => if (headAt? made slot).isSome then made else made ++ [(slot, head)]
  | _ => made

lemma find?_concat {α : Type} (entries : List (Nat × α)) (slot other : Nat) (value : α) :
    ((entries ++ [(slot, value)]).find? fun entry => entry.1 == other).map (·.2) =
      ((entries.find? fun entry => entry.1 == other).map (·.2)).or (if slot = other then some value else none) := by
  rw [find?_append]
  cases entries.find? fun entry => entry.1 == other with
  | some entry => rfl
  | none => by_cases same : slot = other <;> simp [same]

lemma headAt?_addMade (made : List (Nat × Head)) (entry : Entry) (slot : Nat) :
    headAt? (addMade made entry) slot = (headAt? made slot).or (match entry with
      | .allocate other head => if other = slot then some head else none
      | _ => none) := by
  cases entry with
  | allocate other head =>
    by_cases there : (headAt? made other).isSome
    · rw [addMade,if_pos there]
      by_cases same : other = slot
      · subst same
        rw [Option.or_of_isSome there]
      · simp [same]
    · rw [addMade,if_neg there]
      exact find?_concat made other slot head
  | fill | value => simp [addMade]

/-! ### Faults -/

def malformed (message : String) : Diagnostic := { invariant := .malformedPayload, message }

def usedEarly (slot : Nat) : Diagnostic := malformed (slotText slot ++ " is used before it is allocated")

def filledEarly (slot : Nat) : Diagnostic := malformed (slotText slot ++ " is filled before it is allocated")

def madeTwice (slot : Nat) : Diagnostic := malformed (slotText slot ++ " is allocated twice")

def misfit (slot : Nat) : Diagnostic :=
  malformed (slotText slot ++ " is filled with a body that does not match its head")

/-- What is wrong with a leaf, given the slots that have been made. -/
def Leaf.faults (document : Document) (made : List (Nat × Head)) : Leaf → List Diagnostic
  | .ref slot => if (headAt? made slot).isSome then [] else [usedEarly slot]
  | .anchor path =>
    if (document.resolve? path).isSome then [] else [Revival.Build.noAnchor document path]
  | _ => []

def Entry.faults (document : Document) (made : List (Nat × Head)) : Entry → List Diagnostic
  | .allocate slot _ => if (headAt? made slot).isSome then [madeTwice slot] else []
  | .fill slot body =>
    match headAt? made slot with
    | none => [filledEarly slot]
    | some head =>
      if head.takes body then body.leaves.flatMap (Leaf.faults document made) else [misfit slot]
  | .value leaf => leaf.faults document made

/-- What is wrong with the entries, in order. -/
def faultsFrom (document : Document) (made : List (Nat × Head)) : List Entry → List Diagnostic
  | [] => []
  | entry :: rest => entry.faults document made ++ faultsFrom document (addMade made entry) rest

end Payload

namespace Revival
open Payload Leaf Graph
variable {loaders : List (String × String)} {document : Document} {kept : Nat → Cell → Prop} {build later last : Build}
  {made : List (Nat × Head)} {head : Head} {cell before after : Cell} {id : CellId} {slot : Nat}
  {leaf : Leaf} {leaves : List Leaf} {body : Body} {graph : Graph}

lemma cell?_append (found : graph.cell? id = some cell) (more : List Cell) :
    cell? { graph with cells := graph.cells ++ more } id = some cell :=
  (getElem?_append_left (List.getElem?_eq_some_iff.1 found).1).trans found

lemma cell?_add_new (graph : Graph) (new : Cell) : (graph.add new).2.cell? (graph.add new).1 = some new := by
  simp [add,cell?]

lemma cell?_set (graph : Graph) (id other : CellId) (new : Cell) : (graph.set id new).cell? other =
      if id = other ∧ other < graph.cells.length then some new else graph.cell? other := by
  simp only [Graph.set,cell?,getElem?_set]
  by_cases same : id = other
  · subst same
    by_cases bound : id < graph.cells.length <;> simp [bound]
  · simp [same]

lemma run_append (build : Build) (first second : List Entry) : build.run (first ++ second) =
      ((build.run first).1 ++ ((build.run first).2.run second).1, ((build.run first).2.run second).2) := by
  fun_induction Build.run build first with
  | case1 => rfl
  | case2 build slot head rest ih | case3 build slot body rest ih => simpa [Build.run] using ih
  | case4 build leaf rest value later same values last done ih =>
    simp only [done] at ih
    simp [Build.run,same,ih]

/-! ### What is known of a build -/

/-- What later steps keep: slots, and references to exports. -/
structure Keeps (build later : Build) : Prop where
  slots : ∀ {slot value}, build.slot? slot = some value → later.slot? slot = some value
  lazies : ∀ {id named}, build.graph.cell? id = some (.lazy named) → later.graph.cell? id = some (.lazy named)

lemma Keeps.trans (first : Keeps build later) (second : Keeps later last) : Keeps build last :=
  ⟨fun held => second.slots (first.slots held),fun found => second.lazies (first.lazies found)⟩

/-- The containers that a head makes, with anything in them. -/
inductive Makes (loaders : List (String × String)) : Head → Cell → Prop
  | array (items : List Value) : Makes loaders .array (.array items)
  | object (properties : List (String × Value)) : Makes loaders .object (.object none properties)
  | member {target : Target} {named : ExportName} (known : target.export? loaders = some named)
    (properties : List (String × Value)) :
    Makes loaders (.member target) (.object (some named) properties)
  | closure {target : Target} {named : ExportName} (known : target.export? loaders = some named)
    (name : String) (captured : List Value) (module : Option ModuleEntry) :
    Makes loaders (.closure target) (.function name (some ⟨named,captured⟩) module)

/-- What holds of a build after any entries, given the slots that they have made and something that the entries keep
of the containers of slots. -/
structure Tracks (loaders : List (String × String)) (document : Document) (kept : Nat → Cell → Prop) (build : Build)
    (made : List (Nat × Head)) : Prop where
  loaders_eq : build.loaders = loaders
  document_eq : build.graph.document = document
  slot? : ∀ slot, (headAt? made slot = none ∧ build.slot? slot = none) ∨
    ∃ head id cell, headAt? made slot = some head ∧ build.slot? slot = some (.ref id) ∧
      build.graph.cell? id = some cell ∧ Makes loaders head cell ∧ kept slot cell
  apart : ∀ {slot other id}, build.slot? slot = some (.ref id) → build.slot? other = some (.ref id) → slot = other
  targets : build.links.map Link.target = made.filterMap fun entry => entry.2.export? loaders
  unlinked : ∀ {id name origin module}, build.graph.cell? id = some (.function name origin module) →
    module = none ∧ ∃ factory captured, origin = some ⟨factory,captured⟩ ∧ ⟨factory,some id⟩ ∈ build.links
  linked : ∀ {link id}, link ∈ build.links → link.function = some id →
    ∃ name captured, build.graph.cell? id = some (.function name (some ⟨link.target,captured⟩) none)

lemma tracks_start (loaders : List (String × String)) (document : Document) (kept : Nat → Cell → Prop) :
    Tracks loaders document kept { graph := { document }, loaders } [] where
  loaders_eq := rfl
  document_eq := rfl
  slot? _ := .inl ⟨rfl,rfl⟩
  apart := by simp [Build.slot?]
  targets := rfl
  unlinked := by simp [cell?]
  linked := by simp

def Build.grown (build : Build) (more : List Cell) (faults : List Diagnostic) : Build :=
  { build with
    graph := { build.graph with cells := build.graph.cells ++ more }
    errors := build.errors ++ faults }

lemma Build.grown_nil (build : Build) : build.grown [] [] = build := by simp [Build.grown]

def AreLazy (cells : List Cell) : Prop := ∀ cell ∈ cells, ∃ named, cell = .lazy named

lemma areLazy_nil : AreLazy [] := fun _ member => nomatch member

lemma keeps_grown (build : Build) (more : List Cell) (faults : List Diagnostic) :
    Keeps build (build.grown more faults) :=
  ⟨fun held => held,fun found => cell?_append found more⟩

lemma Tracks.grown (tracks : Tracks loaders document kept build made) (lazies : AreLazy more)
    (faults : List Diagnostic) : Tracks loaders document kept (build.grown more faults) made := by
  refine { tracks with slot? := fun slot => ?_, unlinked := ?_, linked := ?_ }
  · rcases tracks.slot? slot with none | ⟨head,id,cell,known,held,found,makes⟩
    · exact .inl none
    · exact .inr ⟨head,id,cell,known,held,cell?_append found more,makes⟩
  · intro id name origin module found
    by_cases old : id < build.graph.cells.length
    · exact tracks.unlinked ((getElem?_append_left old).symm.trans found)
    · have new : more[id - build.graph.cells.length]? = some (.function name origin module) :=
        (getElem?_append_right (Nat.not_lt.1 old)).symm.trans found
      obtain ⟨named,same⟩ := lazies _ (mem_of_getElem? new)
      cases same
  · intro link id listed function
    obtain ⟨name,captured,found⟩ := tracks.linked listed function
    exact ⟨name,captured,cell?_append found more⟩

/-! ### Leaves -/

section
variable (tracks : Tracks loaders document kept build made)
include tracks

lemma Tracks.exportOf (declared : (get? target.loader loaders).isSome) :
    ∃ named, target.export? loaders = some named ∧ build.exportOf target = (some named, build) := by
  obtain ⟨url,found⟩ := Option.isSome_iff_exists.1 declared
  refine ⟨⟨url,target.name⟩,by simp [Target.export?,found],?_⟩
  simp only [Build.exportOf,tracks.loaders_eq,found]

section
variable (declared : ∀ name ∈ leaf.loaders, (get? name loaders).isSome)
include declared

lemma Tracks.valueOf :
    ∃ more, AreLazy more ∧ (build.valueOf leaf).2 = build.grown more (leaf.faults document made) := by
  have same {leaf : Leaf} (fine : leaf.faults document made = []) (eq : (build.valueOf leaf).2 = build) :
      ∃ more, AreLazy more ∧ (build.valueOf leaf).2 = build.grown more (leaf.faults document made) :=
    ⟨[],areLazy_nil,by rw [eq,fine,Build.grown_nil]⟩
  cases leaf with
  | ref slot =>
    rcases tracks.slot? slot with ⟨free,missing⟩ | ⟨head,id,cell,known,found,-⟩
    · refine ⟨[],areLazy_nil,?_⟩
      simp [Build.valueOf,missing,faults,free,Build.malformed,Build.report,Build.grown,
        usedEarly,malformed,Build.slotText,slotText]
    · exact same (by simp [faults,known]) (by simp [Build.valueOf,found])
  | lazy target =>
    obtain ⟨named,-,found⟩ := tracks.exportOf (declared _ mem_cons_self)
    refine ⟨[.lazy named],by simp [AreLazy],?_⟩
    simp [Build.valueOf,found,Build.add,add,faults,Build.grown]
  | anchor path =>
    obtain rfl := tracks.document_eq
    cases found : build.graph.document.resolve? path with
    | some id => exact same (by simp [faults,found]) (by simp [Build.valueOf,found])
    | none =>
      refine ⟨[],areLazy_nil,?_⟩
      simp [Build.valueOf,found,faults,Build.report,Build.grown]
  | _ => exact same rfl rfl

lemma Tracks.afterValue : Tracks loaders document kept (build.valueOf leaf).2 made := by
  obtain ⟨more,lazies,done⟩ := tracks.valueOf declared
  rw [done]
  exact tracks.grown lazies _

end

lemma Tracks.valuesOf (declared : ∀ leaf ∈ leaves, ∀ name ∈ leaf.loaders, (get? name loaders).isSome) :
    ∃ more, AreLazy more ∧ (build.valuesOf leaves).2 = build.grown more (leaves.flatMap (faults document made)) := by
  induction leaves generalizing build with
  | nil => exact ⟨[],areLazy_nil,(Build.grown_nil build).symm⟩
  | cons leaf rest ih =>
    obtain ⟨first,lazyFirst,doneFirst⟩ := tracks.valueOf (declared leaf mem_cons_self)
    obtain ⟨others,lazyOthers,doneOthers⟩ := ih (tracks.grown lazyFirst (leaf.faults document made))
      fun other member => declared other (mem_cons_of_mem _ member)
    refine ⟨first ++ others,?_,?_⟩
    · intro cell member
      exact (mem_append.1 member).elim (lazyFirst cell) (lazyOthers cell)
    · simp only [Build.valuesOf,doneFirst,doneOthers,flatMap_cons]
      simp [Build.grown]

end

/-! ### Entries -/

/-- A container that has been filled with values once more. -/
def filledWith (values : List Value) : Cell → Body → Cell
  | .array items, .elements _ => .array (items ++ values)
  | .object maker properties, .properties fields =>
    .object maker (Build.setProperties properties ((fields.map (·.1)).zip values))
  | .function name (some origin) module, .captured _ =>
    .function name (some { origin with captured := origin.captured ++ values }) module
  | cell, _ => cell

def Build.placed (build : Build) (slot : Nat) (cell : Cell) (links : List Link) : Build :=
  { (build.add cell).2 with
    slots := build.slots ++ [(slot, .ref build.graph.cells.length)]
    links := build.links ++ links }

/-- What one entry does to a build. -/
structure Steps (loaders : List (String × String)) (document : Document) (kept : Nat → Cell → Prop) (build : Build)
    (made : List (Nat × Head)) (entry : Entry) (later : Build) : Prop where
  tracks : Tracks loaders document kept later (addMade made entry)
  keeps : Keeps build later
  errors : later.errors = build.errors ++ entry.faults document made

lemma Makes.fill (makes : Makes loaders head cell) (held : build.slot? slot = some (.ref id))
    (found : build.graph.cell? id = some cell) (body : Body) : build.fill slot body = if head.takes body then
      (build.valuesOf body.leaves).2.setCell id (filledWith (build.valuesOf body.leaves).1 cell body)
      else build.mismatch slot := by
  cases makes <;> cases body <;> simp [Build.fill,held,Build.fillCell,found,Head.takes,filledWith,Body.leaves]

lemma Makes.filledWith (makes : Makes loaders head cell) (values : List Value) (body : Body) :
    Makes loaders head (filledWith values cell body) := by
  cases makes <;> cases body <;> constructor <;> assumption

lemma filledWith_function (values : List Value) (body : Body) :
    ∃ captured', filledWith values (.function name (some ⟨factory,captured⟩) module) body =
      .function name (some ⟨factory,captured'⟩) module := by
  cases body <;> exact ⟨_,rfl⟩

section
variable (tracks : Tracks loaders document kept build made)
include tracks

lemma Tracks.setCell (held : build.slot? slot = some (.ref id)) (found : build.graph.cell? id = some cell)
    (makes : Makes loaders head cell) (values : List Value) (body : Body) (after : Nat → Cell → Prop)
    (still : after slot (filledWith values cell body))
    (others : ∀ {other there}, other ≠ slot → kept other there → after other there) :
    Tracks loaders document after (build.setCell id (filledWith values cell body)) made ∧
      Keeps build (build.setCell id (filledWith values cell body)) := by
  have bound : id < build.graph.cells.length := (List.getElem?_eq_some_iff.1 found).1
  have here : (build.setCell id (filledWith values cell body)).graph.cell? id = some (filledWith values cell body) := by
    simp [Build.setCell,cell?_set,bound]
  have elsewhere {other : CellId} (apart : id ≠ other) :
      (build.setCell id (filledWith values cell body)).graph.cell? other = build.graph.cell? other := by
    simp [Build.setCell,cell?_set,apart]
  refine ⟨{ tracks with slot? := fun other => ?_, unlinked := ?_, linked := ?_ },fun held => held,?_⟩
  · rcases tracks.slot? other with none | ⟨head',place,there,known,heldOther,foundOther,makesOther,keeps⟩
    · exact .inl none
    · refine .inr ⟨head',place,?_⟩
      by_cases same : id = place
      · subst same
        cases found.symm.trans foundOther
        cases tracks.apart held heldOther
        exact ⟨_,known,held,here,makesOther.filledWith values body,still⟩
      · refine ⟨there,known,heldOther,(elsewhere same).trans foundOther,makesOther,others ?_ keeps⟩
        rintro rfl
        cases held.symm.trans heldOther
        exact same rfl
  · intro other name origin module foundOther
    by_cases apart : id = other
    · subst apart
      rw [here] at foundOther
      cases makes with
      | closure =>
        obtain ⟨captured,same⟩ := filledWith_function values body
        rw [same] at foundOther
        cases foundOther
        obtain ⟨free,_,_,⟨⟩,listed⟩ := tracks.unlinked found
        exact ⟨free,_,captured,rfl,listed⟩
      | _ => cases body <;> cases foundOther
    · exact tracks.unlinked ((elsewhere apart).symm.trans foundOther)
  · intro link other listed function
    obtain ⟨name,captured,foundOther⟩ := tracks.linked listed function
    by_cases apart : id = other
    · subst apart
      cases found.symm.trans foundOther
      obtain ⟨captured,same⟩ := filledWith_function values body
      exact ⟨name,captured,same ▸ here⟩
    · exact ⟨name,captured,(elsewhere apart).trans foundOther⟩
  · intro other named there
    have apart : id ≠ other := by
      rintro rfl
      cases found.symm.trans there
      cases makes
    exact (elsewhere apart).trans there

lemma Tracks.fill (fills : ∀ cell values, kept slot cell → kept slot (filledWith values cell body))
    (declared : ∀ leaf ∈ body.leaves, ∀ name ∈ leaf.loaders, (get? name loaders).isSome) :
    Steps loaders document kept build made (.fill slot body) (build.fill slot body) := by
  have reported (fault : Diagnostic) (known : (Entry.fill slot body).faults document made = [fault])
      (eq : build.fill slot body = build.grown [] [fault]) :
      Steps loaders document kept build made (.fill slot body) (build.fill slot body) := by
    rw [eq]
    exact ⟨tracks.grown areLazy_nil [fault],keeps_grown build [] [fault],by rw [known]; rfl⟩
  rcases tracks.slot? slot with ⟨free,missing⟩ | ⟨head,id,cell,known,held,found,makes,keeps⟩
  · refine reported (filledEarly slot) (by simp only [Entry.faults,free]) ?_
    simp [Build.fill,missing,Build.malformed,Build.report,Build.grown,filledEarly,malformed, Build.slotText,slotText]
  · have done := makes.fill held found body
    split at done
    · next fits =>
      obtain ⟨more,lazies,grown⟩ := tracks.valuesOf declared
      obtain ⟨last,stays⟩ := (tracks.grown lazies _).setCell held (cell?_append found more) makes
        (build.valuesOf body.leaves).1 body kept (fills cell _ keeps) fun _ keeps => keeps
      rw [grown] at done
      rw [done]
      exact ⟨last,(keeps_grown build more _).trans stays,by simp [Entry.faults,known,fits]; rfl⟩
    · next unfit =>
      refine reported (misfit slot) (by simp [Entry.faults,known,unfit]) (done.trans ?_)
      simp [Build.mismatch,Build.malformed,Build.report,Build.grown,misfit,malformed, Build.slotText,slotText]

lemma Tracks.place (free : headAt? made slot = none) (makes : Makes loaders head cell) (keeps : kept slot cell)
    (links : List Link) (targets : links.map Link.target = (head.export? loaders).toList)
    (unlinked : ∀ {name origin module}, cell = .function name origin module →
      module = none ∧ ∃ factory captured, origin = some ⟨factory,captured⟩ ∧
        ⟨factory,some build.graph.cells.length⟩ ∈ links)
    (linked : ∀ {link id}, link ∈ links → link.function = some id → id = build.graph.cells.length ∧
      ∃ name captured, cell = .function name (some ⟨link.target,captured⟩) none) :
    Steps loaders document kept build made (.allocate slot head) (build.placed slot cell links) := by
  have new : (build.placed slot cell links).graph.cell? build.graph.cells.length = some cell :=
    cell?_add_new build.graph cell
  have old {id : CellId} {other : Cell} (found : build.graph.cell? id = some other) :
      (build.placed slot cell links).graph.cell? id = some other := cell?_append found [cell]
  have slots (other : Nat) : (build.placed slot cell links).slot? other =
      (build.slot? other).or (if slot = other then some (.ref build.graph.cells.length) else none) :=
    find?_concat build.slots slot other _
  have low {other : Nat} {id : CellId} (held : build.slot? other = some (.ref id)) : id ≠ build.graph.cells.length := by
    rcases tracks.slot? other with ⟨-,missing⟩ | ⟨_,_,_,-,also,found,-⟩
    · cases held.symm.trans missing
    · cases held.symm.trans also
      exact (List.getElem?_eq_some_iff.1 found).1.ne
  have either {other : Nat} {id : CellId} (held : (build.placed slot cell links).slot? other = some (.ref id)) :
      build.slot? other = some (.ref id) ∨ slot = other ∧ build.graph.cells.length = id := by
    rw [slots] at held
    cases known : build.slot? other <;> rw [known] at held
    · exact .inr (by simpa using held)
    · exact .inl held
  have stays : Keeps build (build.placed slot cell links) :=
    ⟨fun {other value} held => by rw [slots,held]; rfl,fun found => old found⟩
  refine ⟨⟨tracks.loaders_eq,tracks.document_eq,fun other => ?_,fun {one two id} first second => ?_,?_,?_,?_⟩,stays,
    by simp [Entry.faults,free,Build.placed,Build.add]⟩
  · rw [headAt?_addMade,slots]
    rcases tracks.slot? other with ⟨none,missing⟩ | ⟨head',id,there,known,held,found,rest⟩
    · by_cases same : slot = other
      · exact .inr ⟨head,_,cell,by simp [none,same],by simp [missing,same],new,makes,same ▸ keeps⟩
      · exact .inl (by simp [none,missing,same])
    · rw [known,held]
      exact .inr ⟨head',id,there,rfl,rfl,old found,rest⟩
  · rcases either first with before | ⟨here,last⟩ <;> rcases either second with before' | ⟨there,last'⟩
    · exact tracks.apart before before'
    · exact absurd last'.symm (low before)
    · exact absurd last.symm (low before')
    · exact here.symm.trans there
  · have added : addMade made (.allocate slot head) = made ++ [(slot, head)] := by simp [addMade,free]
    have last : [(slot, head)].filterMap (fun entry => entry.2.export? loaders) = (head.export? loaders).toList := by
      cases known : head.export? loaders <;> simp [known]
    rw [added,Build.placed,map_append,filterMap_append,tracks.targets,targets,last]
  · intro id name origin module found
    by_cases low : id < build.graph.cells.length
    · obtain ⟨none,factory,captured,same,listed⟩ := tracks.unlinked ((getElem?_append_left low).symm.trans found)
      exact ⟨none,factory,captured,same,mem_append_left _ listed⟩
    · have newest : id = build.graph.cells.length := by
        have bound := (List.getElem?_eq_some_iff.1 found).1
        simp only [Build.placed,Build.add,add,length_append,length_singleton] at bound
        exact Nat.le_antisymm (Nat.lt_succ_iff.1 bound) (Nat.not_lt.1 low)
      subst newest
      obtain ⟨none,factory,captured,same,listed⟩ := unlinked (Option.some.inj (new.symm.trans found))
      exact ⟨none,factory,captured,same,mem_append_right _ listed⟩
  · intro link id listed function
    rcases mem_append.1 listed with before | added
    · obtain ⟨name,captured,found⟩ := tracks.linked before function
      exact ⟨name,captured,old found⟩
    · obtain ⟨rfl,name,captured,same⟩ := linked added function
      exact ⟨name,captured,same ▸ new⟩

lemma Tracks.allocate (makes : ∀ cell, cell.parts = [] → kept slot cell)
    (declared : ∀ name ∈ head.loaders, (get? name loaders).isSome) :
    Steps loaders document kept build made (.allocate slot head) (build.allocate slot head) := by
  rcases tracks.slot? slot with ⟨free,missing⟩ | ⟨other,id,cell,known,held,-⟩
  · cases head with
    | array =>
      have placed := tracks.place free (.array []) (makes _ rfl) [] rfl (by simp) (by simp)
      simpa [Build.allocate,missing,Build.make,Build.placed,Build.add,add] using placed
    | object =>
      have placed := tracks.place free (.object []) (makes _ rfl) [] rfl (by simp) (by simp)
      simpa [Build.allocate,missing,Build.make,Build.placed,Build.add,add] using placed
    | member target =>
      obtain ⟨named,offered,found⟩ := tracks.exportOf (declared _ mem_cons_self)
      have placed := tracks.place free (.member offered []) (makes _ rfl) [⟨named,none⟩]
        (by simp [Head.export?,offered]) (by simp) fun listed function => by
          obtain rfl := mem_singleton.1 listed
          cases function
      simpa [Build.allocate,missing,Build.make,found,Build.placed,Build.add,add] using placed
    | closure target =>
      obtain ⟨named,offered,found⟩ := tracks.exportOf (declared _ mem_cons_self)
      have placed := tracks.place free (.closure offered named.name [] none) (makes _ rfl)
        [⟨named,some build.graph.cells.length⟩] (by simp [Head.export?,offered])
        (by simp) fun listed function => by
          obtain rfl := mem_singleton.1 listed
          cases function
          exact ⟨rfl,named.name,[],rfl⟩
      simpa [Build.allocate,missing,Build.make,found,Build.placed,Build.add,add] using placed
  · have eq : build.allocate slot head = build.grown [] [madeTwice slot] := by
      simp [Build.allocate,held,Build.malformed,Build.report,Build.grown,madeTwice,malformed, Build.slotText,slotText]
    rw [eq]
    refine ⟨?_,keeps_grown build [] _,by simp [Entry.faults,known,Build.grown]⟩
    have same : addMade made (.allocate slot head) = made := by simp [addMade,known]
    rw [same]
    exact tracks.grown areLazy_nil _

end

/-! ### Runs -/

/-- What the entries of a payload keep of the containers of slots. -/
structure Spares (kept : Nat → Cell → Prop) (entries : List Entry) : Prop where
  makes : ∀ slot head, .allocate slot head ∈ entries → ∀ cell, cell.parts = [] → kept slot cell
  fills : ∀ slot body, .fill slot body ∈ entries → ∀ cell values, kept slot cell →
    kept slot (filledWith values cell body)

lemma spares_true (entries : List Entry) : Spares (fun _ _ => True) entries :=
  ⟨fun _ _ _ _ _ => trivial,fun _ _ _ _ _ _ => trivial⟩

lemma Tracks.run (tracks : Tracks loaders document kept build made) (spares : Spares kept entries)
    (declared : ∀ entry ∈ entries, ∀ name ∈ entry.loaders, (get? name loaders).isSome) :
    Tracks loaders document kept (build.run entries).2 (entries.foldl addMade made) ∧
      Keeps build (build.run entries).2 ∧
      (build.run entries).2.errors = build.errors ++ faultsFrom document made entries := by
  induction entries generalizing build made with
  | nil => exact ⟨tracks,⟨fun held => held,fun found => found⟩,by simp [Build.run,faultsFrom]⟩
  | cons entry rest ih =>
    have here := declared entry mem_cons_self
    have next {later : Build} (steps : Steps loaders document kept build made entry later)
        (done : (build.run (entry :: rest)).2 = (later.run rest).2) :
        Tracks loaders document kept (build.run (entry :: rest)).2 ((entry :: rest).foldl addMade made) ∧
          Keeps build (build.run (entry :: rest)).2 ∧
          (build.run (entry :: rest)).2.errors = build.errors ++ faultsFrom document made (entry :: rest) := by
      obtain ⟨last,keeps,errors⟩ := ih steps.tracks
        ⟨fun slot head listed => spares.makes slot head (mem_cons_of_mem _ listed),
          fun slot body listed => spares.fills slot body (mem_cons_of_mem _ listed)⟩
        fun other member => declared other (mem_cons_of_mem _ member)
      rw [done]
      refine ⟨last,steps.keeps.trans keeps,?_⟩
      rw [errors,steps.errors,append_assoc]
      rfl
    cases entry with
    | allocate slot head => exact next (tracks.allocate (spares.makes slot head mem_cons_self) here) rfl
    | fill slot body =>
      refine next (tracks.fill (spares.fills slot body mem_cons_self) fun leaf member name named => here name ?_) rfl
      exact mem_flatMap.2 ⟨leaf,member,named⟩
    | value leaf =>
      obtain ⟨more,lazies,done⟩ := tracks.valueOf here
      refine next ⟨tracks.grown lazies (leaf.faults document made),keeps_grown build more _,rfl⟩ ?_
      simp only [Build.run,done]

lemma run_values_append (build : Build) (before : List Entry) (leaf : Leaf) (after : List Entry) :
    (build.run (before ++ .value leaf :: after)).1 = (build.run before).1 ++ ((build.run before).2.valueOf leaf).1 ::
        (((build.run before).2.valueOf leaf).2.run after).1 := by
  rw [run_append]
  rfl

lemma length_run (build : Build) (entries : List Entry) :
    (build.run entries).1.length = (Parsed.values ⟨[],entries⟩).length := by
  fun_induction Build.run build entries with
  | case1 => rfl
  | case2 build slot head rest ih | case3 build slot body rest ih => simpa [Parsed.values] using ih
  | case4 build leaf rest value later same values last done ih =>
    simp only [done] at ih
    simpa [Parsed.values] using ih

end Revival
end Resumable
