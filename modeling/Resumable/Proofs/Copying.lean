import Mathlib.Data.List.MinMax
import Resumable.Proofs.Overlaps

/-! What becomes of the source. The text of a region is a sequence of stretches: parts of the source that are
copied, and text in their place or around them. Each byte of the source has an owner, the region whose text it is
part of, and is copied there or replaced by an edit of that region; no other region copies it. -/
namespace Resumable
open Script List Text Span
variable {span : Span} {regions : List (Region × List Edit)} {region : Region}

/-! ### Texts and pieces -/

def Script.Span.covers (span : Span) (offset : Nat) : Bool := span.start ≤ offset && offset < span.stop

lemma Text.takeBytes?_append (text rest : List Char) : takeBytes? (text ++ rest) (byteLength text) = some text := by
  induction text with
  | nil => simp [byteLength,takeBytes?]
  | cons c text ih =>
    have positive := c.utf8Size_pos
    obtain ⟨n,size⟩ : ∃ n, byteLength (c :: text) = n + 1 :=
      ⟨c.utf8Size + byteLength text - 1,by rw [byteLength]; omega⟩
    have left : n + 1 - c.utf8Size = byteLength text := by rw [byteLength] at size; omega
    have fits : c.utf8Size ≤ n + 1 := by rw [byteLength] at size; omega
    rw [size,cons_append,takeBytes?,if_pos fits,left,ih]
    rfl

section
variable (text : List Char)
include text

lemma Text.takeBytes?_byteLength : takeBytes? text (byteLength text) = some text := by
  simpa using takeBytes?_append text []

lemma Text.takeBytes?_isSome (offset : Nat) : (takeBytes? text offset).isSome = cutsAt text offset := by
  rw [cutsAt]
  fun_induction takeBytes? text offset with
  | case1 text => cases text <;> rfl
  | case2 => rfl
  | case3 c rest n fits ih => rw [dropBytes?,if_pos fits,Option.isSome_map,ih]
  | case4 c rest n wide => rw [dropBytes?,if_neg wide]

lemma Text.cutsAt_zero : cutsAt text 0 = true := by cases text <;> rfl

lemma Text.cutsAt_byteLength : cutsAt text (byteLength text) = true := by
  rw [← takeBytes?_isSome,takeBytes?_byteLength]
  rfl

end

variable {offset : Nat}

lemma Text.le_byteLength_of_cutsAt (cuts : cutsAt text offset = true) : offset ≤ byteLength text := by
  rw [cutsAt] at cuts
  fun_induction dropBytes? text offset with
  | case1 => exact Nat.zero_le _
  | case2 => cases cuts
  | case3 c rest n fits ih =>
    have := ih cuts
    rw [byteLength]
    omega
  | case4 => cases cuts

lemma Text.slice_whole (text : List Char) : slice text 0 (byteLength text) = text := by
  have whole : dropBytes? text 0 = some text := by cases text <;> rfl
  simp [slice,slice?,whole,takeBytes?_byteLength]

lemma Script.Span.slice?_isSome (fits : span.fits source = true) :
    (slice? source span.start span.stop).isSome = true := by
  obtain ⟨ordered,start,stop⟩ := fits_iff.1 fits
  obtain ⟨rest,dropped⟩ := Option.isSome_iff_exists.1 start
  have further : span.start + (span.stop - span.start) = span.stop := Nat.add_sub_cancel' ordered
  rw [slice?,if_pos ordered,dropped,Option.bind_some,takeBytes?_isSome,cutsAt, ← dropBytes?_add dropped,further]
  exact stop

lemma Script.Span.covers_iff : span.covers offset = true ↔ span.start ≤ offset ∧ offset < span.stop := by simp [covers]

namespace Piece

@[simp] lemma code_append (first second : List Piece) : code (first ++ second) = code first ++ code second :=
  flatMap_append

@[simp] lemma code_ofString (written : String) : code (ofString written) = written.toList := by
  simp [code,ofString,chars]

lemma flatten_linesOf (text : List Char) : (linesOf text).flatten = text := by
  induction text with
  | nil => rfl
  | cons c rest ih =>
    rw [linesOf]
    split
    · rw [flatten_cons,ih]
      rfl
    split
    · rename_i none
      rw [none] at ih
      simp [← ih]
    · rename_i line lines some
      rw [some] at ih
      simp [← ih]

lemma code_markLines (offset : Nat) (lines : List (List Char)) : code (markLines offset lines) = lines.flatten := by
  induction lines generalizing offset with
  | nil => rfl
  | cons line rest ih =>
    rw [flatten_cons,← ih (offset + byteLength line)]
    rfl

end Piece

/-! ### Stretches -/

/-- A part of the output: text of the source, or other text. -/
inductive Stretch where
  | copied (span : Span)
  | written (text : List Char)
  deriving DecidableEq, Repr

namespace Stretch

def text (source : List Char) : Stretch → List Char
  | copied span => slice source span.start span.stop
  | written text => text

def copies (offset : Nat) : Stretch → Bool
  | copied span => span.covers offset
  | written _ => false

def copy (start stop : Nat) : List Stretch := if stop ≤ start then [] else [.copied ⟨start,stop⟩]

/-- A part of the source with edits made to it, which come in order and do not overlap. -/
def splice (start stop : Nat) : List Edit → List Stretch
  | [] => copy start stop
  | edit :: rest => copy start edit.start ++ .written edit.text.toList :: splice edit.stop stop rest

end Stretch

namespace Stretch

variable {source : List Char} {start stop offset : Nat} {edits : List Edit}

lemma code_copy (source : List Char) (start stop : Nat) :
    Piece.code (Piece.copy source start stop) = (copy start stop).flatMap (text source) := by
  rw [Piece.copy,copy]
  split
  · rfl
  · rw [Piece.code_markLines,Piece.flatten_linesOf]
    simp [text]

lemma code_splice (source : List Char) (start stop : Nat) (edits : List Edit) :
    Piece.code (Piece.splice source start stop edits) = (splice start stop edits).flatMap (text source) := by
  induction edits generalizing start with
  | nil => exact code_copy source start stop
  | cons edit rest ih =>
    rw [Piece.splice,splice,Piece.code_append,Piece.code_append,ih,code_copy,flatMap_append, flatMap_cons,append_assoc]
    simp [Piece.code,Piece.chars,text]

lemma code_ofString (source : List Char) (written : String) :
    Piece.code (Piece.ofString written) = [Stretch.written written.toList].flatMap (text source) := by
  simp [text]

lemma text_copy_whole (source : List Char) : (copy 0 (byteLength source)).flatMap (text source) = source := by
  rw [copy]
  split
  · rename_i empty
    cases source with
    | nil => rfl
    | cons c rest =>
      have positive := c.utf8Size_pos
      rw [byteLength] at empty
      omega
  · simp [text,slice_whole]

lemma countP_copy (start stop offset : Nat) :
    (copy start stop).countP (copies offset) = if (Span.mk start stop).covers offset then 1 else 0 := by
  rw [copy]
  split
  · rename_i reversed
    rw [if_neg,countP_nil]
    simp only [covers,Bool.and_eq_true,decide_eq_true_eq]
    omega
  · rw [countP_singleton]
    rfl

/-- A spliced text copies each byte once that no edit replaces. If edits stand before the text, this
leaves out what is between them and the text. -/
lemma countP_splice (bounds : start ≤ stop) (ordered : ∀ edit ∈ edits, edit.start ≤ edit.stop)
    (apart : edits.Pairwise fun a b => a.stop ≤ b.start)
    (starts : ∀ edit ∈ edits, start ≤ edit.start ∨ edit.stop ≤ start ∧ (offset < edit.start ∨ start ≤ offset))
    (ends : ∀ edit ∈ edits, edit.stop ≤ stop) :
    (splice start stop edits).countP (copies offset) =
      if (Span.mk start stop).covers offset && !edits.any (·.span.covers offset) then 1 else 0 := by
  induction edits generalizing start with
  | nil => simp [splice,countP_copy]
  | cons edit rest ih =>
    obtain ⟨behind,apart⟩ := pairwise_cons.1 apart
    obtain ⟨upright,ordered⟩ := forall_mem_cons.1 ordered
    obtain ⟨stands,-⟩ := forall_mem_cons.1 starts
    obtain ⟨within,ends⟩ := forall_mem_cons.1 ends
    have later := ih within ordered apart (fun other member => .inl (behind other member)) ends
    -- no edit of the rest comes before the end of this one
    have early : rest.any (·.span.covers offset) = true → edit.stop ≤ offset := by
      intro found
      obtain ⟨other,member,covered⟩ := any_eq_true.1 found
      exact (behind other member).trans (covers_iff.1 covered).1
    rw [splice,countP_append,countP_cons,later,countP_copy,any_cons]
    generalize rest.any (·.span.covers offset) = replaced at early
    simp only [covers,Edit.span,copies,Bool.false_eq_true,if_false]
    grind

section
variable (opens : cutsAt source start = true) (closes : cutsAt source stop = true)
include opens closes

lemma fits_of_mem_copy (member : .copied span ∈ copy start stop) : span.fits source = true := by
  rw [copy] at member
  split at member
  · exact absurd member not_mem_nil
  · rename_i ordered
    cases mem_singleton.1 member
    exact fits_iff.2 ⟨Nat.le_of_not_le ordered,opens,closes⟩

lemma fits_of_mem_splice (fits : ∀ edit ∈ edits, edit.span.fits source = true)
    (member : .copied span ∈ splice start stop edits) : span.fits source = true := by
  induction edits generalizing start with
  | nil => exact fits_of_mem_copy opens closes member
  | cons edit rest ih =>
    obtain ⟨fits,others⟩ := forall_mem_cons.1 fits
    obtain ⟨_,before,after⟩ := fits_iff.1 fits
    rcases mem_append.1 member with copied | later
    · exact fits_of_mem_copy opens before copied
    · exact ih after others ((mem_cons.1 later).resolve_left nofun)

end
end Stretch

/-! ### The text of a region -/

/-- What the edits of a region are made to: the program, or what goes into a factory. -/
def Scoping.textOf (source : List Char) (tree : Scoping) : Region → Option Span
  | none => some ⟨0,byteLength source⟩
  | some id => ((tree.closure? id).filter Closure.isLifted).map Closure.slice

def Scoping.stretches (source : List Char) (tree : Scoping) (edits : List RegionEdit) (region : Region) :
    List Stretch :=
  match tree.textOf source region with
  | some span => Stretch.splice span.start span.stop (Edit.sort (editsOf edits region))
  | none => []

def Closure.factoryStretches (closure : Closure) (literal : List Stretch) : List Stretch :=
  let head := factoryHead closure ++ if closure.context.isMethod then methodHead closure else ""
  .written head.toList :: literal ++ [.written (factoryTail closure).toList]

def Scoping.allStretches (source : List Char) (tree : Scoping) (withPreamble : Bool)
    (edits : List RegionEdit) : List Stretch :=
  tree.stretches source edits none ++ tree.closures.zipIdx.flatMap (fun entry =>
      if entry.1.isLifted then entry.1.factoryStretches (tree.stretches source edits (some entry.2))
      else []) ++
    if withPreamble && !tree.closures.isEmpty then [.written preamble.toList] else []

lemma code_factoryPieces (source : List Char) (closure : Closure) (edits : List Edit) :
    Piece.code (factoryPieces source closure edits) =
      (closure.factoryStretches (Stretch.splice closure.slice.start closure.slice.stop edits)).flatMap
        (Stretch.text source) := by
  rw [factoryPieces,literalPieces,Closure.factoryStretches,Closure.slice]
  split
  · simp [Stretch.code_splice,Stretch.text]
  · simp [Stretch.code_splice,Stretch.text]

namespace Scoping

variable {source : List Char} {tree : Scoping} {edits : List RegionEdit} {id : ClosureIndex} {closure : Closure}

lemma textOf_of_lifted (found : tree.closure? id = some closure) (lifted : closure.isLifted = true) :
    tree.textOf source (some id) = some closure.slice := by
  simp [textOf,found,lifted]

section
variable (text : tree.textOf source (some id) = some span)
include text

lemma closure_of_textOf :
    ∃ closure, tree.closure? id = some closure ∧ closure.isLifted = true ∧ closure.slice = span := by
  simp only [textOf,Option.map_eq_some_iff,Option.filter_eq_some_iff] at text
  obtain ⟨closure,⟨found,lifted⟩,same⟩ := text
  exact ⟨closure,found,lifted,same⟩

lemma length_of_textOf : id < tree.closures.length := by
  obtain ⟨closure,found,-⟩ := closure_of_textOf text
  exact (List.getElem?_eq_some_iff.1 found).1

end

lemma mem_stretches_of_copied (member : .copied span ∈ tree.allStretches source withPreamble edits) :
    ∃ region, .copied span ∈ tree.stretches source edits region := by
  rcases mem_append.1 member with inside | after
  · rcases mem_append.1 inside with inProgram | inFactory
    · exact ⟨none,inProgram⟩
    obtain ⟨⟨closure,id⟩,-,part⟩ := mem_flatMap.1 inFactory
    refine ⟨some id,?_⟩
    split at part
    · simpa [Closure.factoryStretches] using part
    · exact absurd part not_mem_nil
  · split at after
    · cases mem_singleton.1 after
    · exact absurd after not_mem_nil

lemma code_outputPieces (withPreamble : Bool) (checked : checkRegions file tree edits = .ok regions) :
    Piece.code (outputPieces source tree withPreamble regions) =
      (tree.allStretches source withPreamble edits).flatMap (Stretch.text source) := by
  have sorted : ∀ region, (∀ i, region = some i → i < tree.closures.length) →
      sortedEdits regions region = Edit.sort (editsOf edits region) := fun _ listed =>
    (Edit.check_eq_ok (check_sortedEdits checked listed)).1
  rw [outputPieces,allStretches,Piece.code_append,Piece.code_append,flatMap_append, flatMap_append]
  congr 1
  · congr 1
    · rw [sorted none nofun,Stretch.code_splice]
      rfl
    rw [Piece.code,flatMap_assoc,flatMap_assoc]
    refine flatMap_congr fun ⟨closure,id⟩ member => ?_
    have found : tree.closure? id = some closure := mk_mem_zipIdx_iff_getElem?.mp member
    have listed : id < tree.closures.length := (List.getElem?_eq_some_iff.1 found).1
    dsimp only
    split
    · rename_i lifted
      rw [sorted (some id) (by rintro _ ⟨⟩; exact listed),stretches,textOf_of_lifted found lifted]
      exact code_factoryPieces ..
    · rfl
  · split
    · exact Stretch.code_ofString source preamble
    · rfl

end Scoping

/-! ### Owners of bytes -/

/-- A byte before a class, where an edit of its region stands before it. The edit is in a decorator, which
the class has in front of `export`. -/
def Scoping.Displaced (tree : Scoping) (edits : List RegionEdit) (offset : Nat) : Prop :=
  ∃ id closure, tree.closure? id = some closure ∧ closure.kind = .classLiteral ∧
    ∃ edit ∈ editsOf edits (some id), edit.stop ≤ closure.span.start ∧ edit.start ≤ offset ∧ offset < closure.span.start

/-- The region whose text a byte is part of: the innermost hoisted closure whose text has the byte, or the
program. -/
def Scoping.Owns (tree : Scoping) (offset : Nat) : Region → Prop
  | none => ∀ closure ∈ tree.closures, closure.isLifted = true → closure.slice.covers offset = false
  | some id => ∃ closure, tree.closure? id = some closure ∧ closure.isLifted = true ∧
    closure.slice.covers offset = true ∧ ∀ other ∈ tree.closures, other.isLifted = true →
      other.slice.covers offset = true → other.scope ∈ tree.chain closure.scope

lemma Script.Span.covers_of_holds {outer inner : Span} (holds : outer.holds inner = true)
    (covers : inner.covers offset = true) : outer.covers offset = true := by
  simp only [Span.holds,Bool.and_eq_true,decide_eq_true_eq] at holds
  rw [Span.covers_iff] at covers ⊢
  omega

namespace Scoping

variable {source : List Char} {tree : Scoping} {marks : List Mark} {offset : Nat} {file : String}
  {exportedNames : List String} {edits : List RegionEdit} {id : ClosureIndex} {closure : Closure}

lemma Owns.lt_length (owns : tree.Owns offset region) : ∀ i, region = some i → i < tree.closures.length := by
  rintro i rfl
  obtain ⟨closure,found,-⟩ := owns
  exact (List.getElem?_eq_some_iff.1 found).1

lemma Sound.chain_scope (sound : tree.Sound nests root) (found : tree.closure? id = some closure) :
    tree.chain closure.scope = closure.scope :: tree.chain closure.parent := by
  obtain ⟨scope, entry,_,up⟩ := sound.owned found
  exact chain_of_parent sound.parented entry up

namespace LaidOut

variable (laidOut : tree.LaidOut source marks)
include laidOut

lemma exists_taken (listed : closure ∈ tree.closures) (lifted : closure.isLifted = true) :
    ∃ range, (range, true) ∈ closure.ranges source ∧ range.holds closure.slice = true ∧
      ⟨range,closure.parent,some closure.scope⟩ ∈ marks := by
  obtain ⟨high,layout⟩ := laidOut
  obtain ⟨range,taken,holds⟩ := (layout.covered closure listed lifted).taken
  refine ⟨range,taken,holds,layout.backed.subset (mem_append_right _ ?_)⟩
  exact mem_flatMap.2 ⟨closure,listed,mem_marks.2 ⟨_,taken,rfl⟩⟩

lemma exists_taking (succeeds : (tree.plan file).edits source exportedNames = .ok edits)
    (found : tree.closure? id = some closure) (lifted : closure.isLifted = true) :
    ∃ edit ∈ editsOf edits (tree.homeRegion closure), edit.span.holds closure.slice = true := by
  obtain ⟨range,taken,holds,-⟩ := laidOut.exists_taken (mem_of_getElem? found) lifted
  obtain ⟨edit,part,rfl⟩ := Plan.exists_replacing succeeds found lifted taken
  refine ⟨edit,?_,holds⟩
  rw [Plan.editsOf_eq succeeds]
  refine mem_append_right _ (mem_flatMap.2 ⟨(closure, id),?_,part⟩)
  exact mk_mem_zipIdx_iff_getElem?.mpr found

lemma slice_of_class (listed : closure ∈ tree.closures) (lifted : closure.isLifted = true)
    (isClass : closure.kind = .classLiteral) : closure.slice = closure.span := by
  obtain ⟨high,layout⟩ := laidOut
  have plain := (layout.covered closure listed lifted).plain isClass
  rw [Closure.slice]
  split
  · rename_i isMethod
    rw [Closure.ranges] at plain
    cases context : closure.context <;>
      simp [context,ClosureForm.isMethod,ClosureForm.ranges] at isMethod plain
  · rfl

variable (sound : tree.Sound False root)
include sound

lemma nested_of_covers {i j : ClosureIndex} {first second : Closure}
    (foundFirst : tree.closure? i = some first) (foundSecond : tree.closure? j = some second)
    (liftedFirst : first.isLifted = true) (liftedSecond : second.isLifted = true) (other : i ≠ j)
    (coversFirst : first.slice.covers offset = true) (coversSecond : second.slice.covers offset = true) :
    first.scope ∈ tree.chain second.parent ∨ second.scope ∈ tree.chain first.parent := by
  obtain ⟨a,-,holdsFirst,markedFirst⟩ := laidOut.exists_taken (mem_of_getElem? foundFirst) liftedFirst
  obtain ⟨b,-,holdsSecond,markedSecond⟩ := laidOut.exists_taken (mem_of_getElem? foundSecond) liftedSecond
  obtain ⟨high,layout⟩ := laidOut
  have : Std.Symm (Mark.Apart tree.chain) := ⟨fun _ _ => Mark.Apart.symm⟩
  have apart := layout.apart.forall markedFirst markedSecond fun same =>
    other (sound.index_eq foundFirst foundSecond (Option.some.inj (Mark.mk.inj same).2.2))
  rcases apart with clear | ⟨scope,hole,around⟩ | ⟨scope,hole,around⟩
  · have here := covers_iff.1 (covers_of_holds holdsFirst coversFirst)
    have there := covers_iff.1 (covers_of_holds holdsSecond coversSecond)
    unfold Clear at clear
    dsimp only at clear
    omega
  · cases hole
    exact .inl around
  · cases hole
    exact .inr around

lemma exists_owns (offset : Nat) : ∃ region, tree.Owns offset region := by
  let covering := tree.closures.filter fun closure => closure.isLifted && closure.slice.covers offset
  have mem_covering : ∀ {closure}, closure ∈ covering ↔ closure ∈ tree.closures ∧ closure.isLifted = true ∧
      closure.slice.covers offset = true := by
    simp [covering,mem_filter]
  -- the innermost one has the highest scope
  cases innermost : covering.argmax Closure.scope with
  | none =>
    rw [argmax_eq_none] at innermost
    refine ⟨none,fun closure listed lifted => ?_⟩
    by_contra covers
    have member := mem_covering.2 ⟨listed,lifted,Bool.not_eq_false _ ▸ covers⟩
    rw [innermost] at member
    exact not_mem_nil member
  | some closure =>
    obtain ⟨listed,lifted,covers⟩ := mem_covering.1 (argmax_mem innermost)
    obtain ⟨id,found⟩ := getElem?_of_mem listed
    refine ⟨some id,closure,found,lifted,covers,fun other otherListed otherLifted otherCovers => ?_⟩
    obtain ⟨j,foundOther⟩ := getElem?_of_mem otherListed
    rw [sound.chain_scope found,mem_cons]
    by_cases same : j = id
    · subst same
      cases found.symm.trans foundOther
      exact .inl rfl
    · refine .inr ((laidOut.nested_of_covers sound foundOther found otherLifted lifted same otherCovers
        covers).resolve_right fun within => ?_)
      have low : closure.scope ≤ other.parent := le_of_mem_chain sound.parented within
      have top : other.scope ≤ closure.scope :=
        le_of_mem_argmax (mem_covering.2 ⟨otherListed,otherLifted,otherCovers⟩) innermost
      have up := sound.parent_lt_scope foundOther
      exact absurd (up.trans_le (top.trans low)) (Nat.lt_irrefl _)

variable (succeeds : (tree.plan file).edits source exportedNames = .ok edits)
include succeeds

/-- In the text of every region around a hoisted closure, the text of the closure is replaced. -/
lemma replaced_around (settled : ¬tree.Displaced edits offset) (found : tree.closure? id = some closure)
    (lifted : closure.isLifted = true) (covers : closure.slice.covers offset = true)
    (around : ∀ i, region = some i → ∃ outer, tree.closure? i = some outer ∧ outer.isLifted = true ∧
      outer.scope ∈ tree.chain closure.parent) :
    (editsOf edits region).any (·.span.covers offset) = true := by
  -- from a closure to the one around it, until that is the region
  induction own : closure.scope using Nat.strongRecOn generalizing id closure with
  | ind scope ih =>
    obtain ⟨edit,member,holds⟩ := laidOut.exists_taking succeeds found lifted
    have edited := covers_of_holds holds covers
    by_cases home : tree.homeRegion closure = region
    · rw [home] at member
      exact any_eq_true.2 ⟨edit,member,edited⟩
    cases next : tree.homeRegion closure with
    | none =>
      cases region with
      | none => exact absurd next home
      | some i =>
        obtain ⟨outer,foundOuter,liftedOuter,above⟩ := around i rfl
        obtain ⟨_,_,region,_⟩ := sound.region_within foundOuter liftedOuter above
        cases next.symm.trans region
    | some j =>
      obtain ⟨inner,foundInner,liftedInner,above⟩ := sound.closure_of_region next
      rw [next] at member home
      have smaller : inner.scope < scope := own ▸
        (le_of_mem_chain sound.parented above).trans_lt (sound.parent_lt_scope found)
      have held : inner.slice.holds edit.span = true := by
        refine (laidOut.takes_of_edit sound succeeds foundInner member).resolve_right ?_
        rintro ⟨isClass,before⟩
        obtain ⟨starts,stops⟩ := covers_iff.1 edited
        exact settled ⟨j,inner,foundInner,isClass,edit,member,before,starts, stops.trans_le before⟩
      refine ih inner.scope smaller foundInner liftedInner (covers_of_holds held edited) (fun i same => ?_) rfl
      obtain ⟨outer,foundOuter,liftedOuter,above⟩ := around i same
      obtain ⟨k,middle,region',foundMiddle,within⟩ := sound.region_within foundOuter liftedOuter above
      cases next.symm.trans region'
      cases foundInner.symm.trans foundMiddle
      rw [sound.chain_scope foundInner,mem_cons] at within
      refine ⟨outer,foundOuter,liftedOuter,within.resolve_left fun equal => home ?_⟩
      rw [same,sound.index_eq foundOuter foundInner equal]

lemma fits_of_copied (member : .copied span ∈ tree.stretches source edits region) : span.fits source = true := by
  rw [stretches] at member
  split at member
  · rename_i text own
    have cuts : cutsAt source text.start = true ∧ cutsAt source text.stop = true := by
      cases region with
      | none =>
        cases own
        exact ⟨cutsAt_zero _,cutsAt_byteLength _⟩
      | some id =>
        obtain ⟨closure,found,lifted,rfl⟩ := closure_of_textOf own
        have ⟨_,layout⟩ := laidOut
        exact (fits_iff.1 (layout.covered closure (mem_of_getElem? found) lifted).fits).2
    refine Stretch.fits_of_mem_splice cuts.1 cuts.2 (fun edit listed => ?_) member
    exact laidOut.fits_of_edit sound succeeds ((mergeSort_perm ..).mem_iff.1 listed)
  · exact absurd member not_mem_nil

lemma countP_stretches (settled : ¬tree.Displaced edits offset) (text : tree.textOf source region = some span)
    (checked : Edit.check file (editsOf edits region) = .ok sorted) :
    (tree.stretches source edits region).countP (Stretch.copies offset) =
      if span.covers offset && !(editsOf edits region).any (·.span.covers offset) then 1 else 0 := by
  have fits := fun {edit : Edit} (member : edit ∈ editsOf edits region) => laidOut.fits_of_edit sound succeeds member
  have placed : span.start ≤ span.stop ∧ ∀ edit ∈ editsOf edits region, (span.start ≤ edit.start ∨
      edit.stop ≤ span.start ∧ (offset < edit.start ∨ span.start ≤ offset)) ∧ edit.stop ≤ span.stop := by
    cases region with
    | none =>
      cases text
      refine ⟨Nat.zero_le _,fun edit member => ⟨.inl (Nat.zero_le _),?_⟩⟩
      exact Text.le_byteLength_of_cutsAt (Span.fits_iff.1 (fits member)).2.2
    | some id =>
      obtain ⟨closure,found,lifted,rfl⟩ := closure_of_textOf text
      have listed := mem_of_getElem? found
      have ordered : closure.slice.start ≤ closure.slice.stop := by
        have ⟨_,layout⟩ := laidOut
        exact (Span.fits_iff.1 (layout.covered closure listed lifted).fits).1
      refine ⟨ordered,fun edit member => ?_⟩
      rcases laidOut.takes_of_edit sound succeeds found member with holds | ⟨isClass,before⟩
      · simp only [Span.holds,Bool.and_eq_true,decide_eq_true_eq] at holds
        exact ⟨.inl holds.1,holds.2⟩
      have same := laidOut.slice_of_class listed lifted isClass
      rw [same] at ordered ⊢
      refine ⟨.inr ⟨before,?_⟩,before.trans ordered⟩
      by_contra between
      exact settled ⟨id,closure,found,isClass,edit,member,before,by omega,by omega⟩
  have perm : (Edit.sort (editsOf edits region)).Perm (editsOf edits region) := mergeSort_perm ..
  have member {edit : Edit} : edit ∈ Edit.sort (editsOf edits region) → edit ∈ editsOf edits region := perm.mem_iff.1
  obtain ⟨rfl,apart⟩ := Edit.check_eq_ok checked
  rw [stretches,text,← perm.any_eq]
  exact Stretch.countP_splice placed.1 (fun edit listed => (Span.fits_iff.1 (fits (member listed))).1) apart
    (fun edit listed => (placed.2 edit (member listed)).1)
    (fun edit listed => (placed.2 edit (member listed)).2)

section
variable (checked : checkRegions file tree edits = .ok regions) (settled : ¬tree.Displaced edits offset)
  (owns : tree.Owns offset region)
include checked settled owns

lemma countP_of_not_owns (apart : other ≠ region) :
    (tree.stretches source edits other).countP (Stretch.copies offset) = 0 := by
  cases text : tree.textOf source other with
  | none => rw [stretches,text,countP_nil]
  | some span =>
    have listed := fun i (same : other = some i) => length_of_textOf (same ▸ text)
    rw [laidOut.countP_stretches sound succeeds settled text (check_sortedEdits checked listed)]
    by_cases covers : span.covers offset = true
    · have replaced : (editsOf edits other).any (·.span.covers offset) = true := by
        cases region with
        | none =>
          cases other with
          | none => exact absurd rfl apart
          | some i =>
            obtain ⟨closure,found,lifted,rfl⟩ := closure_of_textOf text
            cases (owns closure (mem_of_getElem? found) lifted).symm.trans covers
        | some id =>
          obtain ⟨closure,found,lifted,inner,innermost⟩ := owns
          refine laidOut.replaced_around sound succeeds settled found lifted inner fun i same => ?_
          subst same
          obtain ⟨outer,foundOuter,liftedOuter,rfl⟩ := closure_of_textOf text
          have around := innermost outer (mem_of_getElem? foundOuter) liftedOuter covers
          rw [sound.chain_scope found,mem_cons] at around
          refine ⟨outer,foundOuter,liftedOuter,around.resolve_left fun equal => apart ?_⟩
          rw [sound.index_eq foundOuter found equal]
      simp [replaced]
    · simp [covers]

lemma countP_of_owns (within : offset < byteLength source) :
    (tree.stretches source edits region).countP (Stretch.copies offset) =
      if (editsOf edits region).any (·.span.covers offset) then 0 else 1 := by
  obtain ⟨span,text,covers⟩ : ∃ span, tree.textOf source region = some span ∧ span.covers offset = true := by
    cases region with
    | none => exact ⟨_,rfl,covers_iff.2 ⟨Nat.zero_le _,within⟩⟩
    | some id =>
      obtain ⟨closure,found,lifted,covers,-⟩ := owns
      exact ⟨_,textOf_of_lifted found lifted,covers⟩
  have listed := fun i (same : region = some i) => length_of_textOf (same ▸ text)
  rw [laidOut.countP_stretches sound succeeds settled text (check_sortedEdits checked listed),covers]
  cases (editsOf edits region).any (·.span.covers offset) <;> rfl

end
end LaidOut

lemma countP_allStretches (source : List Char) (tree : Scoping) (withPreamble : Bool)
    (edits : List RegionEdit) (offset : Nat) :
    (tree.allStretches source withPreamble edits).countP (Stretch.copies offset) =
      (tree.stretches source edits none).countP (Stretch.copies offset) + ((range tree.closures.length).map fun id =>
          (tree.stretches source edits (some id)).countP (Stretch.copies offset)).sum := by
  have rest : (if withPreamble && !tree.closures.isEmpty then [Stretch.written preamble.toList]
      else []).countP (Stretch.copies offset) = 0 := by
    split <;> rfl
  rw [allStretches,countP_append,countP_append,rest,Nat.add_zero,countP_flatMap,
    range_eq_range',← zipIdx_map_snd,map_map]
  refine congrArg (_ + sum ·) (map_congr_left fun ⟨closure,id⟩ member => ?_)
  have found : tree.closure? id = some closure := mk_mem_zipIdx_iff_getElem?.mp member
  dsimp only [Function.comp]
  split
  · simp [Closure.factoryStretches,Stretch.copies]
  · rename_i stays
    simp [stretches,textOf,found,Option.filter,stays]

lemma countP_of_alone (withPreamble : Bool) (known : ∀ i, region = some i → i < tree.closures.length)
    (alone : ∀ other, other ≠ region → (tree.stretches source edits other).countP (Stretch.copies offset) = 0) :
    (tree.allStretches source withPreamble edits).countP (Stretch.copies offset) =
      (tree.stretches source edits region).countP (Stretch.copies offset) := by
  rw [countP_allStretches]
  cases region with
  | none =>
    rw [sum_eq_zero,Nat.add_zero]
    intro count member
    obtain ⟨id,-,rfl⟩ := mem_map.1 member
    exact alone _ nofun
  | some id =>
    have once : (range tree.closures.length).count id = 1 :=
      count_eq_one_of_mem nodup_range (mem_range.2 (known id rfl))
    rw [alone none nofun,Nat.zero_add,
      sum_map_eq_nsmul_single id _ fun other apart _ => alone _ (mt Option.some.inj apart),
      once,one_nsmul]

lemma stretches_of_sorted (sorted : (editsOf edits region).Pairwise fun a b => a.before b = true) :
    tree.stretches source edits region = (tree.textOf source region).elim [] fun span =>
      Stretch.splice span.start span.stop (editsOf edits region) := by
  rw [stretches,Edit.sort,mergeSort_of_pairwise sorted]
  cases tree.textOf source region <;> rfl

end Scoping

variable {plan : Plan}

lemma Plan.useEdit_of_no_closures (none : plan.tree.closures = []) (reference : Reference) :
    plan.useEdit reference = .ok Option.none := by
  have closure? : ∀ id, plan.tree.closure? id = Option.none := by simp [Scoping.closure?,none]
  have stays : ∀ owner site, plan.passesThrough owner site = false := by
    intro owner site
    unfold Plan.passesThrough
    split
    · rw [closure?]
    · rfl
  have this : ∀ owner site, plan.thisText owner site = "this" := by simp [Plan.thisText,stays]
  have arguments : ∀ owner site, plan.argumentsText owner site = "arguments" := by simp [Plan.argumentsText,stays]
  unfold Plan.useEdit
  split
  · simp [this]
  · simp [arguments]
  · unfold Plan.variableEdit
    split
    · rfl
    · rw [closure?]

lemma Plan.editsOf_of_no_closures (none : plan.tree.closures = []) {source : List Char}
    {exportedNames : List String} {edits : List RegionEdit}
    (succeeds : plan.edits source exportedNames = .ok edits) (region : Region) :
    editsOf edits region = [] := by
  rw [Plan.editsOf_eq succeeds,none]
  simp [Plan.referencePart,Plan.useEdit_of_no_closures none,Except.toOption,editsOf]

/-- Each byte of the source belongs to one region, the innermost hoisted closure whose text has it or the
program. It is copied there once, or replaced by an edit of that region, and is copied nowhere else. This
leaves out bytes between an edited decorator and the exported class that it belongs to. If no closure is
registered, the output is the source. -/
theorem source_is_copied_once (source : List Char) (selection : Selection) (program : Program)
    (options : Options) {output : Output}
    (compiled : (analyzeBound source selection program).output source options = .ok output) :
    let analysis := analyzeBound source selection program
    ∃ edits, (analysis.tree.plan options.filename).edits source analysis.exportedNames = .ok edits ∧
      let whole := analysis.tree.allStretches source options.preamble edits
      output.code.toList = whole.flatMap (Stretch.text source) ∧
      (program.fits source = true →
        (∀ span, .copied span ∈ whole → (Text.slice? source span.start span.stop).isSome = true) ∧
        ∀ offset < Text.byteLength source, ¬analysis.tree.Displaced edits offset →
          ∃ region, analysis.tree.Owns offset region ∧
            whole.countP (Stretch.copies offset) =
              (if (editsOf edits region).any (·.span.covers offset) then 0 else 1) ∧
            ∀ other, other ≠ region →
              (analysis.tree.stretches source edits other).countP (Stretch.copies offset) = 0) ∧
      (analysis.tree.closures = [] → output.code = String.ofList source) := by
  intro analysis
  obtain ⟨edits, regions, succeeds, checked, code⟩ := Analysis.output_eq compiled
  have text : output.code.toList =
      (analysis.tree.allStretches source options.preamble edits).flatMap (Stretch.text source) := by
    rw [code, String.toList_ofList, Scoping.code_outputPieces options.preamble checked]
  refine ⟨edits, succeeds, text, fun fits => ?_, fun none => ?_⟩
  · let setting : Selecting := { source, selects := selection.selects }
    obtain ⟨marks, laidOut⟩ : ∃ marks, analysis.tree.LaidOut source marks := analyze_laidOut setting fits
    have sound : analysis.tree.Sound False Scoping.root := analyze_bindAll_sound setting program
    refine ⟨fun span copied => ?_, fun offset within settled => ?_⟩
    · obtain ⟨region, member⟩ := Scoping.mem_stretches_of_copied copied
      exact Span.slice?_isSome (laidOut.fits_of_copied sound succeeds member)
    · obtain ⟨region, owns⟩ := laidOut.exists_owns sound offset
      have alone := fun other (apart : other ≠ region) =>
        laidOut.countP_of_not_owns sound succeeds checked settled owns apart
      refine ⟨region, owns, ?_, alone⟩
      rw [Scoping.countP_of_alone options.preamble owns.lt_length alone]
      exact laidOut.countP_of_owns sound succeeds checked settled owns within
  · have unedited : Edit.sort (editsOf edits Option.none) = [] := by
      rw [Plan.editsOf_of_no_closures none succeeds]
      exact List.mergeSort_nil
    rw [← String.toList_inj, text, String.toList_ofList]
    simp [Scoping.allStretches, Scoping.stretches, Scoping.textOf, none, unedited, Stretch.splice,
      Stretch.text_copy_whole]

/-- The text of the arrow function is in its factory and that of `go` in its own, and both without
repetition. -/
theorem calledEarly_is_copied_once :
    let analysis := analyzeBound calledEarlyText .all calledEarly
    calledEarly.fits calledEarlyText = true ∧
    ∃ output edits, analysis.output calledEarlyText {} = .ok output ∧
      (analysis.tree.plan "").edits calledEarlyText analysis.exportedNames = .ok edits ∧
      (∀ offset, ¬analysis.tree.Displaced edits offset) ∧
      ∀ offset < 43, ∃ region, analysis.tree.Owns offset region ∧
        (analysis.tree.allStretches calledEarlyText true edits).countP (Stretch.copies offset) =
          (if (editsOf edits region).any (·.span.covers offset) then 0 else 1) ∧
        ∀ other, other ≠ region →
          (analysis.tree.stretches calledEarlyText edits other).countP (Stretch.copies offset) = 0 := by
  intro analysis
  have fits : calledEarly.fits calledEarlyText = true := by decide +kernel
  have plain : ∀ closure ∈ analysis.tree.closures, closure.kind ≠ .classLiteral := by decide +kernel
  have length : Text.byteLength calledEarlyText = 43 := by decide +kernel
  have ordered : analysis.inOrder calledEarlyText "" = true := by decide +kernel
  obtain ⟨output, compiled⟩ : ∃ output, analysis.output calledEarlyText {} = .ok output :=
    Analysis.output_of_inOrder ordered
  obtain ⟨edits, succeeds, -, copied, -⟩ :=
    source_is_copied_once calledEarlyText .all calledEarly {} compiled
  have settled : ∀ offset, ¬analysis.tree.Displaced edits offset := by
    rintro offset ⟨id, closure, found, isClass, -⟩
    exact plain closure (List.mem_of_getElem? found) isClass
  refine ⟨fits, output, edits, compiled, succeeds, settled, fun offset within => ?_⟩
  exact (copied fits).2 offset (length ▸ within) (settled offset)

/-- Bytes can be copied twice: the decorator before `export` stays in the program, with the arrow function
in it, and `export` is copied into the factory of the class. -/
theorem decorator_is_copied_twice :
    let analysis := analyzeBound decoratedExportText .all decoratedExport
    decoratedExport.fits decoratedExportText = true ∧
    ∃ output edits, analysis.output decoratedExportText {} = .ok output ∧
      (analysis.tree.plan "").edits decoratedExportText analysis.exportedNames = .ok edits ∧
      ∀ offset ∈ [11, 20],
        (analysis.tree.allStretches decoratedExportText true edits).countP (Stretch.copies offset) = 2 := by
  intro analysis
  have ordered : analysis.inOrder decoratedExportText "" = true := by decide +kernel
  have two : analysis.tree.closures.length = 2 := by decide +kernel
  obtain ⟨output, compiled⟩ : ∃ output, analysis.output decoratedExportText {} = .ok output :=
    Analysis.output_of_inOrder ordered
  have made : ((analysis.tree.plan "").edits decoratedExportText analysis.exportedNames).toOption.map
      (fun edits => [11, 20].all fun offset =>
        (([none, some 0, some 1].map fun region => ((analysis.tree.textOf decoratedExportText region).elim []
          fun span => Stretch.splice span.start span.stop (editsOf edits region)).countP
            (Stretch.copies offset)).sum == 2)) = some true := by decide +kernel
  cases succeeds : (analysis.tree.plan "").edits decoratedExportText analysis.exportedNames with
  | error => simp [succeeds, Except.toOption] at made
  | ok edits =>
    refine ⟨by decide +kernel, output, edits, compiled, rfl, fun offset listed => ?_⟩
    have sorted : ∀ region ∈ [none, some 0, some 1],
        (editsOf edits region).Pairwise fun a b => a.before b = true := by
      intro region member
      simp only [Analysis.inOrder, succeeds, Except.toOption, Option.any_some, two] at ordered
      have own := List.all_eq_true.mp ordered region member
      rw [Bool.and_eq_true, decide_eq_true_eq] at own
      exact own.1
    rw [succeeds] at made
    have counts := List.all_eq_true.mp (Option.some.inj made) offset listed
    rw [Scoping.countP_allStretches, two]
    refine Eq.trans ?_ (eq_of_beq counts)
    change ([none, some 0, some 1].map fun region =>
      (analysis.tree.stretches decoratedExportText edits region).countP (Stretch.copies offset)).sum = _
    refine congrArg List.sum (List.map_congr_left fun region member => ?_)
    rw [Scoping.stretches_of_sorted (sorted region member)]

end Resumable
