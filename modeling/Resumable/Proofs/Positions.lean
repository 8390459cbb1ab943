import Mathlib.Data.List.DropRight
import Resumable.Proofs.Splicing

/-! Positions of a source and of the output made from it. Both are where some text ends: the lines before it
and the units of its last line. The table of line starts gives this for an offset of the source, and the
output counts it up as it is written, so a mapping joins two places with the same text behind them. -/
namespace Resumable
open List Option
variable {source before rest text more output written : List Char} {start stop offset : Nat}

namespace Text

/-! ### Where a text ends -/

/-- The line feeds of a text, and the units after the last of them. -/
def endOf (text : List Char) : Position := ⟨text.count '\n',unitLength (text.rtakeWhile (· != '\n'))⟩

def Position.Before (a b : Position) : Prop := a.line < b.line ∨ a.line = b.line ∧ a.column < b.column

lemma unitLength_append (first second : List Char) :
    unitLength (first ++ second) = unitLength first + unitLength second := by
  induction first with
  | nil => simp [unitLength]
  | cons c first ih => simp [unitLength,ih,Nat.add_assoc]

lemma units_pos (c : Char) : 0 < units c := by
  rw [units]
  split <;> decide

lemma endOf_concat (text : List Char) (c : Char) : endOf (text ++ [c]) = advancePosition (endOf text) [c] := by
  by_cases feed : c = '\n'
  · subst feed
    simp [endOf,advancePosition,unitLength]
  · simp [endOf,advancePosition,feed,unitLength_append,unitLength]

lemma advancePosition_endOf (text more : List Char) : advancePosition (endOf text) more = endOf (text ++ more) := by
  induction more generalizing text with
  | nil => simp [advancePosition]
  | cons c rest ih =>
    have step : advancePosition (endOf text) (c :: rest) =
      advancePosition (advancePosition (endOf text) [c]) rest := rfl
    rw [step,← endOf_concat,ih,append_assoc]
    rfl

lemma before_advancePosition (position : Position) (some : more ≠ []) :
    position.Before (advancePosition position more) := by
  induction more generalizing position with
  | nil => exact absurd rfl some
  | cons c rest ih =>
    have first : position.Before (advancePosition position [c]) := by
      have positive := units_pos c
      by_cases feed : c = '\n' <;> simp [Position.Before,advancePosition,feed,positive]
    by_cases last : rest = []
    · exact last ▸ first
    · have later := ih (advancePosition position [c]) last
      change position.Before (advancePosition (advancePosition position [c]) rest)
      simp only [Position.Before] at first later ⊢
      omega

lemma endOf_before (text : List Char) (some : more ≠ []) : (endOf text).Before (endOf (text ++ more)) :=
  advancePosition_endOf text more ▸ before_advancePosition (endOf text) some

/-! ### The table of line starts -/

lemma startsAfter_append (offset : Nat) (first second : List Char) : startsAfter offset (first ++ second) =
      startsAfter offset first ++ startsAfter (offset + byteLength first) second := by
  fun_induction startsAfter offset first with
  | case1 => rfl
  | case2 offset rest next ih => simp [startsAfter,byteLength,ih,next,Nat.add_assoc]
  | case3 offset c rest next plain ih => simp [startsAfter,byteLength,plain,ih,next,Nat.add_assoc]

lemma mem_startsAfter (member : start ∈ startsAfter offset text) :
    offset < start ∧ start ≤ offset + byteLength text := by
  fun_induction startsAfter offset text with
  | case1 => cases member
  | case2 offset rest next ih =>
    have positive := ('\n' : Char).utf8Size_pos
    rw [byteLength]
    rcases mem_cons.1 member with rfl | later
    · omega
    · have := ih later
      omega
  | case3 offset c rest next plain ih =>
    have := ih member
    rw [byteLength]
    omega

lemma length_startsAfter (offset : Nat) (text : List Char) : (startsAfter offset text).length = text.count '\n' := by
  fun_induction startsAfter offset text with
  | case1 => rfl
  | case2 offset rest next ih => simp [ih]
  | case3 offset c rest next plain ih => simp [ih,plain]

lemma getLast?_startsAfter (text : List Char) :
    (0 :: startsAfter 0 text).getLast? = some (byteLength (text.rdropWhile (· != '\n'))) := by
  induction text using reverseRecOn with
  | nil => rfl
  | append_singleton text c ih =>
    rw [startsAfter_append,Nat.zero_add]
    by_cases feed : c = '\n'
    · subst feed
      rw [rdropWhile_concat_neg _ _ _ (by decide),byteLength_append,← cons_append]
      exact getLast?_concat
    · simpa [startsAfter,feed] using ih

lemma dropBytes?_append (text rest : List Char) : dropBytes? (text ++ rest) (byteLength text) = some rest := by
  induction text with
  | nil => cases rest <;> rfl
  | cons c text ih =>
    have one : dropBytes? (c :: (text ++ rest)) c.utf8Size = some (text ++ rest) := by
      obtain ⟨n,size⟩ := Nat.exists_eq_add_one.2 c.utf8Size_pos
      rw [size,dropBytes?,if_pos size.le,size,Nat.sub_self]
      cases text ++ rest <;> rfl
    rw [cons_append,byteLength,dropBytes?_add one,ih]

lemma slice?_append (before text rest : List Char) :
    slice? (before ++ (text ++ rest)) (byteLength before) (byteLength (before ++ text)) = some text := by
  rw [byteLength_append,slice?,if_pos (Nat.le_add_right _ _),dropBytes?_append,Nat.add_sub_cancel_left]
  exact takeBytes?_append text rest

lemma exists_append_of_cutsAt (cuts : cutsAt source offset = true) :
    ∃ before rest, source = before ++ rest ∧ byteLength before = offset := by
  obtain ⟨rest,dropped⟩ := isSome_iff_exists.1 cuts
  obtain ⟨before,whole,size⟩ := exists_append_of_dropBytes? dropped
  exact ⟨before,rest,whole,size⟩

lemma slice_zero_append (before rest : List Char) : slice (before ++ rest) 0 (byteLength before) = before := by
  simpa [slice,byteLength] using congrArg (·.getD []) (slice?_append [] before rest)

/-- The position of an offset is where the text in front of it ends, or all of it. -/
lemma LineStarts.position_append (before rest : List Char)
    (reaches : min offset (byteLength (before ++ rest)) = byteLength before) :
    (ofText (before ++ rest)).position (before ++ rest) offset = endOf before := by
  rw [byteLength_append] at reaches
  have reached : (ofText (before ++ rest)).starts.takeWhile (· ≤ offset) = 0 :: startsAfter 0 before := by
    have early : ∀ start ∈ 0 :: startsAfter 0 before, decide (start ≤ offset) = true := by
      intro start member
      rcases mem_cons.1 member with rfl | later
      · simp
      · have := mem_startsAfter later
        simp only [decide_eq_true_eq]
        omega
    have late : (startsAfter (0 + byteLength before) rest).takeWhile (· ≤ offset) = [] := by
      cases starts : startsAfter (0 + byteLength before) rest with
      | nil => rfl
      | cons start others =>
        have := mem_startsAfter (starts ▸ mem_cons_self)
        rw [takeWhile_cons_of_neg]
        simp only [decide_eq_true_eq]
        omega
    rw [ofText,startsAfter_append,← cons_append,takeWhile_append_of_pos early,late,append_nil]
  have line := rdropWhile_append_rtakeWhile (p := (· != '\n')) (l := before)
  have last := slice?_append (before.rdropWhile (· != '\n')) (before.rtakeWhile (· != '\n')) rest
  rw [← append_assoc,line] at last
  simp only [position,lineOf,reached,getLast?_startsAfter,getD_some,byteLength_append,reaches,last,
    map_some,length_cons,length_startsAfter,Nat.add_sub_cancel,endOf]

lemma LineStarts.position_cut (before rest : List Char) :
    (ofText (before ++ rest)).position (before ++ rest) (byteLength before) = endOf before :=
  position_append before rest (Nat.min_eq_left (by rw [byteLength_append]; exact Nat.le_add_right _ _))

/-- The table of line starts agrees with a scan of the text: the position of an offset between characters is
the line feeds before it and the units since the last of them. So positions grow with the offset, and past
the end they stay at the end. -/
theorem positions_agree_with_scan (text : List Char) :
    (∀ offset, cutsAt text offset = true →
      (LineStarts.ofText text).position text offset = endOf (slice text 0 offset)) ∧
      (∀ offset later, cutsAt text offset = true → cutsAt text later = true → offset < later →
        ((LineStarts.ofText text).position text offset).Before
          ((LineStarts.ofText text).position text later)) ∧
      ∀ offset, byteLength text ≤ offset →
        (LineStarts.ofText text).position text offset = endOf text := by
  refine ⟨fun offset cuts => ?_,fun offset later cuts cutsLater less => ?_,fun offset past => ?_⟩
  · obtain ⟨before,rest,rfl,rfl⟩ := exists_append_of_cutsAt cuts
    rw [LineStarts.position_cut,slice_zero_append]
  · obtain ⟨before,rest,rfl,rfl⟩ := exists_append_of_cutsAt cuts
    obtain ⟨further,tail,same,rfl⟩ := exists_append_of_cutsAt cutsLater
    rcases append_eq_append_iff.1 same with ⟨more,rfl,rfl⟩ | ⟨more,rfl,-⟩
    · rw [byteLength_append] at less
      rw [LineStarts.position_cut,← append_assoc,LineStarts.position_cut]
      exact endOf_before before (by rintro rfl; simp [byteLength] at less)
    · rw [byteLength_append] at less
      omega
  · have whole := LineStarts.position_append text [] (by rwa [append_nil,Nat.min_eq_right])
    rwa [append_nil] at whole

example : (LineStarts.ofText "é\n😀x".toList).position "é\n😀x".toList 7 = ⟨1,2⟩ := by decide

end Text

/-! ### Mappings -/

namespace Piece

lemma mappingsFrom_append (source : List Char) (written : List Char) (first second : List Piece) :
    mappingsFrom (.ofText source) source (Text.endOf written) (first ++ second) =
      mappingsFrom (.ofText source) source (Text.endOf written) first ++
        mappingsFrom (.ofText source) source (Text.endOf (written ++ code first)) second := by
  induction first generalizing written with
  | nil => simp [code,mappingsFrom]
  | cons piece rest ih =>
    cases piece with
    | mark offset => simpa [mappingsFrom,code,chars] using ih written
    | text chars =>
      simp only [cons_append,mappingsFrom,Text.advancePosition_endOf,ih]
      simp [code,Piece.chars]

lemma exists_of_mem_mappingsFrom {pieces : List Piece} {mapping : Mapping}
    (member : mapping ∈ mappingsFrom (.ofText source) source (Text.endOf written) pieces) :
    ∃ more, mapping.output = Text.endOf (written ++ more) := by
  induction pieces generalizing written with
  | nil => cases member
  | cons piece rest ih =>
    cases piece with
    | mark offset =>
      rcases mem_cons.1 member with rfl | later
      · exact ⟨[],by simp⟩
      · exact ih later
    | text chars =>
      rw [mappingsFrom,Text.advancePosition_endOf] at member
      obtain ⟨more,place⟩ := ih member
      exact ⟨chars ++ more,by rw [place,append_assoc]⟩

lemma pairwise_mappingsFrom (source written : List Char) (pieces : List Piece) :
    (mappingsFrom (.ofText source) source (Text.endOf written) pieces).Pairwise fun a b =>
      a.output = b.output ∨ a.output.Before b.output := by
  induction pieces generalizing written with
  | nil => exact .nil
  | cons piece rest ih =>
    cases piece with
    | mark offset =>
      refine pairwise_cons.2 ⟨fun later member => ?_,ih written⟩
      obtain ⟨more,place⟩ := exists_of_mem_mappingsFrom member
      rw [place]
      by_cases none : more = []
      · exact .inl (by simp [none])
      · exact .inr (Text.endOf_before written none)
    | text chars =>
      rw [mappingsFrom,Text.advancePosition_endOf]
      exact ih (written ++ chars)

lemma linesOf_spec {line : List Char} (member : line ∈ linesOf text) : line ≠ [] ∧ '\n' ∉ line.dropLast := by
  fun_induction linesOf text generalizing line with
  | case1 => cases member
  | case2 c rest feed ih =>
    rcases mem_cons.1 member with rfl | later
    · simp
    · exact ih later
  | case3 c rest plain none ih =>
    cases mem_singleton.1 member
    simp
  | case4 c rest plain first others some ih =>
    rcases mem_cons.1 member with rfl | later
    · obtain ⟨nonempty,single⟩ := ih (some ▸ mem_cons_self)
      rw [dropLast_cons_of_ne_nil nonempty]
      have other : '\n' ≠ c := fun same => plain (by simp [← same])
      exact ⟨cons_ne_nil _ _,by simp [other,single]⟩
    · exact ih (some ▸ mem_cons_of_mem _ later)

end Piece

/-- What a mark of the output is made for: a line of a part that is copied, or an edit. -/
inductive Cause where
  | line (text : List Char)
  | change (edit : Edit)

namespace Cause

/-- A mapping leads from the start of a line or of an edit's text in the output to the place in the source
that the line is copied from or the edit is made at. -/
def Leads (source output : List Char) (mapping : Mapping) : Cause → Prop
  | line text => text ≠ [] ∧ '\n' ∉ text.dropLast ∧ ∃ written before,
      mapping = ⟨Text.endOf written,Text.endOf before⟩ ∧ written ++ text <+: output ∧ before ++ text <+: source
  | change edit => ∃ written, mapping = ⟨Text.endOf written,Text.endOf (Text.slice source 0 edit.start)⟩ ∧
        written ++ edit.text.toList <+: output

def copied (source : List Char) (start stop : Nat) : List Cause :=
  if stop ≤ start then [] else (Piece.linesOf (Text.slice source start stop)).map line

def spliced (source : List Char) (start stop : Nat) : List Edit → List Cause
  | [] => copied source start stop
  | edit :: rest => copied source start edit.start ++ .change edit :: spliced source edit.stop stop rest

/-- Pieces that follow some output make the mappings of their marks. -/
def Mark (source written : List Char) (pieces : List Piece) (causes : List Cause) : Prop :=
  Forall₂ (fun cause mapping => cause.Leads source (written ++ Piece.code pieces) mapping) causes
    (mappingsFrom (.ofText source) source (Text.endOf written) pieces)

variable {pieces : List Piece} {causes : List Cause}

lemma Leads.append {cause : Cause} {mapping : Mapping} (leads : cause.Leads source output mapping) :
    cause.Leads source (output ++ more) mapping := by
  cases cause with
  | line text =>
    obtain ⟨some,single,written,before,equal,inOutput,inSource⟩ := leads
    exact ⟨some,single,written,before,equal,inOutput.trans (prefix_append _ _),inSource⟩
  | change edit =>
    obtain ⟨written,equal,inOutput⟩ := leads
    exact ⟨written,equal,inOutput.trans (prefix_append _ _)⟩

lemma Mark.append {others : List Piece} {further : List Cause} (first : Mark source written pieces causes)
    (second : Mark source (written ++ Piece.code pieces) others further) :
    Mark source written (pieces ++ others) (causes ++ further) := by
  rw [Mark,Piece.mappingsFrom_append,Piece.code_append,← append_assoc]
  exact rel_append (first.imp fun _ _ => Leads.append) second

lemma mark_lines {lines : List (List Char)} (there : source = before ++ (lines.flatten ++ rest))
    (single : ∀ line ∈ lines, line ≠ [] ∧ '\n' ∉ line.dropLast) :
    Mark source written (Piece.markLines (Text.byteLength before) lines) (lines.map line) := by
  induction lines generalizing before written with
  | nil => exact .nil
  | cons first others ih =>
    obtain ⟨own,single⟩ := forall_mem_cons.1 single
    rw [flatten_cons,append_assoc] at there
    have head : Mark source written [.mark (Text.byteLength before),.text first] [.line first] := by
      refine .cons ⟨own.1,own.2,written,before,?_,?_,?_⟩ .nil
      · rw [there,Text.LineStarts.position_cut]
      · simp [Piece.code,Piece.chars]
      · simp [there]
    refine head.append ?_
    rw [← Text.byteLength_append]
    exact ih (by simp [there]) single

section
variable (opens : Text.cutsAt source start = true) (closes : Text.cutsAt source stop = true)
include opens closes

lemma mark_copy : Mark source written (Piece.copy source start stop) (copied source start stop) := by
  rw [Piece.copy,copied]
  split
  · exact .nil
  obtain ⟨before,rest,rfl,rfl⟩ := Text.exists_append_of_cutsAt opens
  obtain ⟨further,tail,same,rfl⟩ := Text.exists_append_of_cutsAt closes
  rcases append_eq_append_iff.1 same with ⟨text,rfl,rfl⟩ | ⟨text,rfl,rfl⟩
  · rw [Text.slice,Text.slice?_append,getD_some]
    have there := congrArg (fun lines => before ++ (lines ++ tail)) (Piece.flatten_linesOf text).symm
    exact mark_lines there fun line => Piece.linesOf_spec
  · rw [Text.byteLength_append] at *
    omega

lemma mark_splice {edits : List Edit}
    (cuts : ∀ edit ∈ edits, Text.cutsAt source edit.start = true ∧ Text.cutsAt source edit.stop = true) :
    Mark source written (Piece.splice source start stop edits) (spliced source start stop edits) := by
  induction edits generalizing start written with
  | nil => exact mark_copy opens closes
  | cons edit rest ih =>
    obtain ⟨⟨first,last⟩,others⟩ := forall_mem_cons.1 cuts
    have change (written : List Char) :
        Mark source written [.mark edit.start,.text edit.text.toList] [.change edit] := by
      refine .cons ⟨written,?_,?_⟩ .nil
      · obtain ⟨before,tail,rfl,cut⟩ := Text.exists_append_of_cutsAt first
        rw [← cut,Text.LineStarts.position_cut,Text.slice_zero_append]
      · simp [Piece.code,Piece.chars]
    rw [Piece.splice,spliced,append_assoc]
    exact (mark_copy opens first).append ((change _).append (ih last others))

end

end Cause

/-- What is asked of the output: text of its own, a part of the source, or one with edits made to it. -/
inductive Request where
  | write (text : String)
  | copy (start stop : Nat)
  | splice (start stop : Nat) (edits : List Edit)

namespace Request

def pieces (source : List Char) : Request → List Piece
  | write text => Piece.ofString text
  | copy start stop => Piece.copy source start stop
  | splice start stop edits => Piece.splice source start stop edits

def causes (source : List Char) : Request → List Cause
  | write _ => []
  | copy start stop => Cause.copied source start stop
  | splice start stop edits => Cause.spliced source start stop edits

def Fits (source : List Char) : Request → Prop
  | write _ => True
  | copy start stop => Text.cutsAt source start = true ∧ Text.cutsAt source stop = true
  | splice start stop edits => Text.cutsAt source start = true ∧ Text.cutsAt source stop = true ∧
      ∀ edit ∈ edits, Text.cutsAt source edit.start = true ∧ Text.cutsAt source edit.stop = true

lemma mark_pieces {request : Request} (fits : request.Fits source) :
    Cause.Mark source written (request.pieces source) (request.causes source) := by
  cases request with
  | write text => exact .nil
  | copy start stop => exact Cause.mark_copy fits.1 fits.2
  | splice start stop edits => exact Cause.mark_splice fits.1 fits.2.1 fits.2.2

lemma mark_all (written : List Char) {requests : List Request} (fits : ∀ request ∈ requests, request.Fits source) :
    Cause.Mark source written (requests.flatMap (pieces source)) (requests.flatMap (causes source)) := by
  induction requests generalizing written with
  | nil => exact .nil
  | cons request rest ih =>
    obtain ⟨own,others⟩ := forall_mem_cons.1 fits
    exact (mark_pieces own).append (ih _ others)

end Request

/-- For all that is asked of the output of a source: after any part of the output the position that is
counted is where the text so far ends; if all offsets are between characters, each mapping, in order, leads
from the start of a copied line in the output to the same text in the source, or from the text of an edit to
where it is made; and positions in the output never go back. -/
theorem mappings_lead_to_the_source (source : List Char) (requests : List Request) :
    let pieces := requests.flatMap (Request.pieces source)
    (∀ before after, pieces = before ++ after → mappings source pieces = mappings source before ++
      mappingsFrom (.ofText source) source (Text.endOf (Piece.code before)) after) ∧
      ((∀ request ∈ requests, request.Fits source) →
        List.Forall₂ (fun cause mapping => cause.Leads source (Piece.code pieces) mapping)
          (requests.flatMap (Request.causes source)) (mappings source pieces)) ∧
      (mappings source pieces).Pairwise fun a b => a.output = b.output ∨ a.output.Before b.output := by
  refine ⟨fun before after split => ?_,Request.mark_all [],Piece.pairwise_mappingsFrom source [] _⟩
  rw [split]
  exact Piece.mappingsFrom_append source [] before after

end Resumable
