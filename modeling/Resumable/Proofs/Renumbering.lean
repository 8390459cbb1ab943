import Resumable.Proofs.TextRoundTrip

/-! Payloads that differ in the numbers of slots and the names of loaders only. Such payloads are
revived to one and the same graph. -/
namespace Resumable
open List

namespace Payload

variable {parting : Parting} {left right : Recorder} {a b : Entry}

/-! ### What is read back is alike -/

lemma Leaf.Alike.normal {a b : Leaf} (alike : Leaf.Alike parting left right a b) :
    Leaf.Alike parting left right a.normal b.normal := by
  cases alike with
  | anchor id => exact .anchor id
  | ref taken => exact .ref taken
  | lazy targets => exact .lazy targets
  | _ => constructor

lemma Leaf.allAlike_normal {a b : List Leaf} (alike : a.Forall₂ (Leaf.Alike parting left right) b) :
    (a.map Leaf.normal).Forall₂ (Leaf.Alike parting left right) (b.map Leaf.normal) := by
  rw [forall₂_map_left_iff,forall₂_map_right_iff]
  exact alike.imp fun _ _ => Leaf.Alike.normal

lemma Body.Alike.normal {a b : Body} (alike : Body.Alike parting left right a b) :
    Body.Alike parting left right a.normal b.normal := by
  cases alike with
  | elements leaves => exact .elements (Leaf.allAlike_normal leaves)
  | captured leaves => exact .captured (Leaf.allAlike_normal leaves)
  | @properties keys _ _ leaves =>
    have fields := @Body.Alike.properties _ _ _ keys _ _ (Leaf.allAlike_normal leaves)
    rw [zip_map_right,zip_map_right] at fields
    exact fields

lemma Entry.Alike.normal (alike : Entry.Alike parting left right a b) :
    Entry.Alike parting left right a.normal b.normal := by
  cases alike with
  | allocate taken heads => exact .allocate taken heads
  | fill taken bodies => exact .fill taken bodies.normal
  | value leaves => exact .value leaves.normal

/-! ### Slots are used alike -/

lemma Leaf.Alike.slot? {a b : Leaf} (alike : Leaf.Alike parting left right a b) :
    b.slot? = a.slot?.map parting.slot := by
  cases alike <;> rfl

lemma Leaf.filterMap_slot? {a b : List Leaf} (alike : a.Forall₂ (Leaf.Alike parting left right) b) :
    b.filterMap Leaf.slot? = (a.filterMap Leaf.slot?).map parting.slot := by
  induction alike with
  | nil => rfl
  | @cons x y _ _ first _ ih =>
    rw [filterMap_cons,filterMap_cons,first.slot?]
    cases x.slot? with
    | none => exact ih
    | some slot => exact congrArg _ ih

lemma Body.Alike.leaves {a b : Body} (alike : Body.Alike parting left right a b) :
    a.leaves.Forall₂ (Leaf.Alike parting left right) b.leaves := by
  cases alike with
  | elements leaves | captured leaves => exact leaves
  | @properties keys _ _ leaves =>
    induction leaves generalizing keys with
    | nil => simp [Body.leaves]
    | cons first _ ih =>
      cases keys with
      | nil => exact .nil
      | cons key keys => exact .cons first ih

lemma Entry.Alike.uses (alike : Entry.Alike parting left right a b) : b.uses = a.uses.map parting.slot := by
  cases alike with
  | allocate => rfl
  | fill _ bodies => exact congrArg _ (Leaf.filterMap_slot? bodies.leaves)
  | @value a b leaves =>
    rw [Entry.uses,Entry.uses,leaves.slot?]
    cases a.slot? <;> rfl

lemma Entry.Alike.allocated? (alike : Entry.Alike parting left right a b) :
    b.allocated? = a.allocated?.map parting.slot := by
  cases alike <;> rfl

lemma contains_map_slot (known : List Nat) (slot : Nat) :
    (known.map parting.slot).contains (parting.slot slot) = known.contains slot := by
  rw [Bool.eq_iff_iff,contains_iff_mem,contains_iff_mem]
  exact mem_map_of_injective fun _ _ => Parting.slot_injective

lemma allocatesFrom_alike {a b : List Entry} (alike : a.Forall₂ (Entry.Alike parting left right) b)
    (known : List Nat) : allocatesFrom (known.map parting.slot) b = allocatesFrom known a := by
  induction alike generalizing known with
  | nil => rfl
  | @cons x y _ _ first _ ih =>
    have next : known.map parting.slot ++ y.allocated?.toList = (known ++ x.allocated?.toList).map parting.slot := by
      rw [first.allocated?,map_append]
      cases x.allocated? <;> rfl
    rw [allocatesFrom,allocatesFrom,next,ih,first.uses,first.allocated?,all_map]
    congr 2
    · exact congrArg x.uses.all (funext fun slot => contains_map_slot known slot)
    · cases x.allocated? with
      | none => rfl
      | some slot => exact congrArg not (contains_map_slot known slot)

end Payload

/-! ### Graphs are made alike -/

namespace Revival
open Payload (Parting Recorder Leaf Head Body Entry Target Loader)

structure Build.Alike (parting : Parting) (left right : Recorder) (a b : Build) : Prop where
  graph : b.graph = a.graph
  slots : b.slots = a.slots.map fun entry => (parting.slot entry.1, entry.2)
  links : b.links = a.links
  errors : b.errors.map Diagnostic.invariant = a.errors.map Diagnostic.invariant
  loadersLeft : a.loaders = left.loaders.map Loader.declared
  loadersRight : b.loaders = right.loaders.map Loader.declared

namespace Build

variable {parting : Parting} {left right : Recorder} {a b : Build} {x y : List Leaf}

namespace Alike

variable (alike : Build.Alike parting left right a b)
include alike

lemma slot? (slot : Nat) : b.slot? (parting.slot slot) = a.slot? slot := by
  rw [Build.slot?,Build.slot?,alike.slots,List.find?_map]
  have same : ((fun entry : Nat × Value => entry.1 == parting.slot slot) ∘
      fun entry : Nat × Value => (parting.slot entry.1, entry.2)) = fun entry => entry.1 == slot := by
    funext entry
    rw [Function.comp,Bool.eq_iff_iff,beq_iff_eq,beq_iff_eq]
    exact ⟨Parting.slot_injective,congrArg parting.slot⟩
  rw [same]
  cases a.slots.find? fun entry => entry.1 == slot <;> rfl

lemma report {x y : Diagnostic} (same : y.invariant = x.invariant) :
    Build.Alike parting left right (a.report x) (b.report y) := by
  refine { alike with errors := ?_ }
  rw [Build.report,Build.report,map_append,map_append,alike.errors]
  exact congrArg _ (congrArg (fun code => [code]) same)

lemma add (cell : Cell) : (b.add cell).1 = (a.add cell).1 ∧
    Build.Alike parting left right (a.add cell).2 (b.add cell).2 := by
  rw [Build.add,Build.add,alike.graph]
  exact ⟨rfl,{ alike with graph := rfl }⟩

lemma setCell (id : CellId) (same : other = cell) :
    Build.Alike parting left right (a.setCell id cell) (b.setCell id other) := by
  rw [Build.setCell,Build.setCell,alike.graph,same]
  exact { alike with graph := rfl }

lemma addLink (link : Link) : Build.Alike parting left right
    { a with links := a.links ++ [link] } { b with links := b.links ++ [link] } :=
  { alike with links := congrArg (· ++ [link]) alike.links }

end Alike

/-- The names of loaders that two payloads declare are those of one URL each. -/
structure Named (left right : Recorder) : Prop where
  left : (left.loaders.map Loader.name).Nodup
  right : (right.loaders.map Loader.name).Nodup

lemma fst_zip_alike (keys : List String) (leaves : x.Forall₂ (Leaf.Alike parting left right) y) :
    (keys.zip y).map (·.1) = (keys.zip x).map (·.1) := by
  induction leaves generalizing keys with
  | nil => rfl
  | cons _ _ ih =>
    cases keys with
    | nil => rfl
    | cons key keys => exact congrArg (key :: ·) (ih keys)

section Steps
variable (named : Named left right)
include named

variable (alike : Build.Alike parting left right a b)
include alike

lemma Alike.exportOf {x y : Target} (targets : Target.Alike left right x y) :
    ∃ found, a.exportOf x = (some found, a) ∧ b.exportOf y = (some found, b) := by
  obtain ⟨name,url,first,second⟩ := targets
  refine ⟨⟨url,x.name⟩,?_,?_⟩
  · rw [Build.exportOf,alike.loadersLeft,Recorder.get?_declared named.left first]
  · rw [Build.exportOf,alike.loadersRight,Recorder.get?_declared named.right second,name]

lemma Alike.valueOf {x y : Leaf} (leaves : Leaf.Alike parting left right x y) : (b.valueOf y).1 = (a.valueOf x).1 ∧
      Build.Alike parting left right (a.valueOf x).2 (b.valueOf y).2 := by
  cases leaves with
  | @ref slot =>
    rw [Build.valueOf,Build.valueOf,alike.slot?]
    cases a.slot? slot with
    | some value => exact ⟨rfl,alike⟩
    | none => exact ⟨rfl,alike.report rfl⟩
  | lazy targets =>
    obtain ⟨found,first,second⟩ := alike.exportOf named targets
    obtain ⟨same,next⟩ := alike.add (.lazy found)
    rw [Build.valueOf,Build.valueOf,first,second]
    exact ⟨congrArg Value.ref same,next⟩
  | anchor id =>
    rw [Build.valueOf,Build.valueOf,alike.graph]
    cases a.graph.document.resolve? (parting.graph.document.pathTo id) with
    | some node => exact ⟨rfl,alike⟩
    | none => exact ⟨rfl,alike.report rfl⟩
  | _ => exact ⟨rfl,alike⟩

lemma Alike.valuesOf (leaves : x.Forall₂ (Leaf.Alike parting left right) y) : (b.valuesOf y).1 = (a.valuesOf x).1 ∧
      Build.Alike parting left right (a.valuesOf x).2 (b.valuesOf y).2 := by
  induction leaves generalizing a b with
  | nil => exact ⟨rfl,alike⟩
  | cons first _ ih =>
    obtain ⟨value,next⟩ := alike.valueOf named first
    obtain ⟨values,last⟩ := ih next
    exact ⟨congrArg₂ List.cons value values,last⟩

lemma Alike.make {x y : Head} (heads : Head.Alike left right x y) :
    (b.make y).1 = (a.make x).1 ∧ Build.Alike parting left right (a.make x).2 (b.make y).2 := by
  cases heads with
  | array =>
    obtain ⟨same,next⟩ := alike.add (.array [])
    exact ⟨congrArg Value.ref same,next⟩
  | object =>
    obtain ⟨same,next⟩ := alike.add (.object none [])
    exact ⟨congrArg Value.ref same,next⟩
  | member targets =>
    obtain ⟨found,first,second⟩ := alike.exportOf named targets
    obtain ⟨same,next⟩ := alike.add (.object (some found) [])
    rw [Build.make,Build.make,first,second]
    exact ⟨congrArg Value.ref same,next.addLink _⟩
  | closure targets =>
    obtain ⟨found,first,second⟩ := alike.exportOf named targets
    obtain ⟨same,next⟩ := alike.add (.function found.name (some ⟨found,[]⟩) none)
    rw [Build.make,Build.make,first,second]
    refine ⟨congrArg Value.ref same,?_⟩
    simp only [same]
    exact next.addLink _

lemma Alike.fillCell {x y : Body} (bodies : Body.Alike parting left right x y) (slot other : Nat) (id : CellId) :
    Build.Alike parting left right (a.fillCell slot id x) (b.fillCell other id y) := by
  have mismatch : Build.Alike parting left right (a.mismatch slot) (b.mismatch other) := alike.report rfl
  obtain ⟨values,next⟩ := alike.valuesOf named bodies.leaves
  unfold Build.fillCell
  rw [alike.graph]
  obtain - | cell := a.graph.cell? id
  · cases bodies <;> exact mismatch
  cases bodies with
  | elements leaves =>
    rcases cell with items | - | ⟨-,- | -⟩ | - | -
    · exact next.setCell id (congrArg (fun more => Cell.array (items ++ more)) values)
    all_goals exact mismatch
  | captured leaves =>
    rcases cell with - | - | ⟨name,- | origin,module⟩ | - | -
    case function.some =>
      exact next.setCell id (congrArg (fun more => Cell.function name
        (some { origin with captured := origin.captured ++ more }) module) values)
    all_goals exact mismatch
  | @properties keys _ _ leaves =>
    rcases cell with - | ⟨maker,properties⟩ | ⟨-,- | -⟩ | - | -
    case object =>
      refine next.setCell id ?_
      rw [fst_zip_alike keys leaves]
      exact congrArg (fun more => Cell.object maker (setProperties properties (List.zip _ more))) values
    all_goals exact mismatch

lemma Alike.fill {x y : Body} (bodies : Body.Alike parting left right x y) (slot : Nat) :
    Build.Alike parting left right (a.fill slot x) (b.fill (parting.slot slot) y) := by
  rw [Build.fill,Build.fill,alike.slot?]
  cases a.slot? slot with
  | none => exact alike.report rfl
  | some value =>
    cases value with
    | ref id => exact alike.fillCell named bodies _ _ id
    | undefined => exact alike
    | _ => exact alike.report rfl

lemma Alike.allocate {x y : Head} (heads : Head.Alike left right x y) (slot : Nat) :
    Build.Alike parting left right (a.allocate slot x) (b.allocate (parting.slot slot) y) := by
  rw [Build.allocate,Build.allocate,alike.slot?]
  cases a.slot? slot with
  | some value => exact alike.report rfl
  | none =>
    obtain ⟨same,next⟩ := alike.make named heads
    refine { next with slots := ?_ }
    change (b.make y).2.slots ++ [(parting.slot slot, (b.make y).1)] =
      ((a.make x).2.slots ++ [(slot, (a.make x).1)]).map _
    rw [map_append,next.slots,same]
    rfl

lemma Alike.run {x y : List Entry} (entries : x.Forall₂ (Entry.Alike parting left right) y) :
    (b.run y).1 = (a.run x).1 ∧ Build.Alike parting left right (a.run x).2 (b.run y).2 := by
  induction entries generalizing a b with
  | nil => exact ⟨rfl,alike⟩
  | cons first _ ih =>
    cases first with
    | allocate _ heads => exact ih (alike.allocate named heads _)
    | fill _ bodies => exact ih (alike.fill named bodies _)
    | value leaves =>
      obtain ⟨value,next⟩ := alike.valueOf named leaves
      obtain ⟨values,last⟩ := ih next
      exact ⟨congrArg₂ List.cons value values,last⟩

end Steps
end Build

/-- The same has come back and the same kinds of things went wrong. -/
structure Revived.Agrees (a b : Revived) : Prop where
  graph : b.graph = a.graph
  values : b.values = a.values
  modules : b.modules = a.modules
  errors : b.errors.map Diagnostic.invariant = a.errors.map Diagnostic.invariant

lemma ofParsed_agrees {parting : Parting} {left right : Recorder} (named : Build.Named left right)
    {x y : List Entry} (entries : x.Forall₂ (Entry.Alike parting left right) y) (document : Document)
    (modules : ModuleTable) :
    (ofParsed ⟨left.loaders.map Loader.declared,x⟩ document modules).Agrees
      (ofParsed ⟨right.loaders.map Loader.declared,y⟩ document modules) := by
  have start : Build.Alike parting left right { graph := { document }, loaders := left.loaders.map Loader.declared }
      { graph := { document }, loaders := right.loaders.map Loader.declared } :=
    ⟨rfl,rfl,rfl,rfl,rfl,rfl⟩
  obtain ⟨values,last⟩ := start.run named entries
  constructor
  all_goals simp only [ofParsed,last.graph,last.links,values,map_append,last.errors]

end Revival
end Resumable
