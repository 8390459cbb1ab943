import Resumable.Proofs.Copying

/-! Edits made to a text. Edits that pass the check do not overlap, and can be sorted in one way only that keeps
those of one range as they were recorded. -/
namespace Resumable
open List Text
variable {source text rest : List Char} {start middle stop offset : Nat} {edits : List Edit}

/-! ### Slices -/

namespace Text

lemma byteLength_append (first second : List Char) :
    byteLength (first ++ second) = byteLength first + byteLength second := by
  induction first with
  | nil => simp [byteLength]
  | cons c first ih => simp [byteLength,ih,Nat.add_assoc]

lemma exists_append_of_dropBytes? (dropped : dropBytes? text offset = some rest) :
    ∃ before, text = before ++ rest ∧ byteLength before = offset := by
  fun_induction dropBytes? text offset with
  | case1 text =>
    cases dropped
    exact ⟨[],rfl,rfl⟩
  | case2 => cases dropped
  | case3 c tail n fits ih =>
    obtain ⟨before,rfl,size⟩ := ih dropped
    refine ⟨c :: before,rfl,?_⟩
    rw [byteLength]
    omega
  | case4 => cases dropped

lemma slice_append (first : cutsAt source start = true) (second : cutsAt source middle = true)
    (third : cutsAt source stop = true) (low : start ≤ middle) (high : middle ≤ stop) :
    slice source start middle ++ slice source middle stop = slice source start stop := by
  obtain ⟨whole,atStart⟩ := Option.isSome_iff_exists.1 first
  obtain ⟨later,atMiddle⟩ := Option.isSome_iff_exists.1 second
  obtain ⟨last,atStop⟩ := Option.isSome_iff_exists.1 third
  have fromStart := dropBytes?_add atStart (middle - start)
  have fromMiddle := dropBytes?_add atMiddle (stop - middle)
  rw [Nat.add_sub_cancel' low,atMiddle] at fromStart
  rw [Nat.add_sub_cancel' high,atStop] at fromMiddle
  obtain ⟨early,rfl,sizeEarly⟩ := exists_append_of_dropBytes? fromStart.symm
  obtain ⟨late,rfl,sizeLate⟩ := exists_append_of_dropBytes? fromMiddle.symm
  have size : stop - start = byteLength (early ++ late) := by
    rw [byteLength_append]
    omega
  simp only [slice,slice?,low,high,low.trans high,if_true,atStart,atMiddle,Option.bind_some,
    size,← sizeEarly,← sizeLate,takeBytes?_append,Option.getD_some]
  rw [← append_assoc,takeBytes?_append,Option.getD_some]

end Text

namespace Edit

/-! ### Sorting -/

/-- A byte lies in both ranges, or one edit is an insertion strictly inside the other. -/
def Overlaps (a b : Edit) : Prop :=
  (∃ offset, a.span.covers offset = true ∧ b.span.covers offset = true) ∨
    (a.start = a.stop ∧ b.start < a.start ∧ a.start < b.stop) ∨
    (b.start = b.stop ∧ a.start < b.start ∧ b.start < a.stop)

lemma clear_iff_not_overlaps {a b : Edit} (uprightA : a.start ≤ a.stop) (uprightB : b.start ≤ b.stop) :
    a.span.Clear b.span ↔ ¬a.Overlaps b := by
  simp only [Overlaps,Script.Span.Clear,Script.Span.covers_iff,Edit.span,not_or,not_exists]
  constructor
  · rintro clear
    refine ⟨fun offset shared => ?_,?_,?_⟩ <;> omega
  · rintro ⟨apart,outside,outside'⟩
    have first := apart a.start
    have second := apart b.start
    omega

lemma filter_sort (edits : List Edit) (range : Script.Span) :
    (sort edits).filter (·.span == range) = edits.filter (·.span == range) := by
  have ordered : (edits.filter (·.span == range)).Pairwise fun a b => a.before b = true := by
    refine pairwise_of_forall_mem_list fun a memberA b memberB => ?_
    have same : a.span = b.span := by rw [beq_iff_eq.1 (mem_filter.1 memberA).2,beq_iff_eq.1 (mem_filter.1 memberB).2]
    simp only [Edit.span,Script.Span.mk.injEq] at same
    simp [before,same]
  have sublist := sublist_mergeSort before_trans before_total ordered filter_sublist
  have kept := sublist.filter (·.span == range)
  rw [filter_filter,filter_congr fun _ _ => Bool.and_self _] at kept
  exact (kept.eq_of_length ((mergeSort_perm edits before).filter _).length_eq.symm).symm

lemma sort_eq_of_perm {others : List Edit} (perm : edits.Perm others)
    (distinct : (edits.map Edit.span).Nodup) : sort others = sort edits := by
  have sorts (list : List Edit) : (sort list).Perm list := mergeSort_perm list before
  refine ((sorts others).trans (perm.symm.trans (sorts edits).symm)).eq_of_pairwise ?_
    (sort_pairwise others) (sort_pairwise edits)
  intro a b memberA memberB ab ba
  apply inj_on_of_nodup_map distinct
  · exact perm.mem_iff.2 ((sorts others).mem_iff.1 memberA)
  · exact (sorts edits).mem_iff.1 memberB
  · simp only [before,Bool.or_eq_true,Bool.and_eq_true,decide_eq_true_eq,beq_iff_eq] at ab ba
    simp only [Edit.span,Script.Span.mk.injEq]
    omega

/-! ### Splicing -/

/-- A part of the source, with something in the place of the range of each edit. -/
def rewritten (source : List Char) (write : Edit → List Char) (start stop : Nat) : List Edit → List Char
  | [] => slice source start stop
  | edit :: rest => slice source start edit.start ++ write edit ++ rewritten source write edit.stop stop rest

lemma rewritten_ranges (opens : cutsAt source start = true) (closes : cutsAt source stop = true)
    (low : start ≤ stop) (fits : ∀ edit ∈ edits, edit.span.fits source = true)
    (within : ∀ edit ∈ edits, start ≤ edit.start ∧ edit.stop ≤ stop)
    (apart : edits.Pairwise fun a b => a.stop ≤ b.start) :
    rewritten source (fun edit => slice source edit.start edit.stop) start stop edits = slice source start stop := by
  induction edits generalizing start with
  | nil => rfl
  | cons edit rest ih =>
    obtain ⟨fits,others⟩ := forall_mem_cons.1 fits
    obtain ⟨⟨first,last⟩,inside⟩ := forall_mem_cons.1 within
    obtain ⟨behind,apart⟩ := pairwise_cons.1 apart
    obtain ⟨upright,cutsStart,cutsStop⟩ : edit.start ≤ edit.stop ∧ cutsAt source edit.start = true ∧
      cutsAt source edit.stop = true := Script.Span.fits_iff.1 fits
    have onward : ∀ other ∈ rest, edit.stop ≤ other.start ∧ other.stop ≤ stop := fun other member =>
      ⟨behind other member,(inside other member).2⟩
    rw [rewritten,ih cutsStop last others onward apart,append_assoc,
      slice_append cutsStart cutsStop closes upright last,
      slice_append opens cutsStart closes first (upright.trans last)]

lemma code_splice (source : List Char) (start stop : Nat) (edits : List Edit) :
    Piece.code (Piece.splice source start stop edits) =
      rewritten source (fun edit => edit.text.toList) start stop edits := by
  have copied (start stop : Nat) :
      (Stretch.copy start stop).flatMap (Stretch.text source) = slice source start stop := by
    rw [Stretch.copy]
    split
    · rename_i reversed
      have none (rest : List Char) : takeBytes? rest 0 = some [] := by cases rest <;> rfl
      rw [slice,slice?]
      split
      · rw [Nat.sub_eq_zero_of_le reversed]
        cases dropBytes? source start <;> simp [none]
      · rfl
    · simp [Stretch.text]
  rw [Stretch.code_splice]
  induction edits generalizing start with
  | nil => exact copied start stop
  | cons edit rest ih =>
    rw [Stretch.splice,flatMap_append,flatMap_cons,copied,ih,rewritten,append_assoc]
    rfl

/-- Edits pass the check exactly if no two of them overlap. They are then sorted by range, so that
insertions stand before a replacement that starts there, and those of one range as they were recorded; the
order in which edits of different ranges were recorded does not matter. Spliced into a part of a source that
they lie in, they put their texts in the place of their ranges. -/
theorem checked_edits_are_spliced (file : String) (edits : List Edit)
    (upright : ∀ edit ∈ edits, edit.start ≤ edit.stop) :
    ((∃ sorted, check file edits = .ok sorted) ↔ edits.Pairwise fun a b => ¬a.Overlaps b) ∧
      ∀ sorted, check file edits = .ok sorted →
        sorted.Perm edits ∧
        (sorted.Pairwise fun a b => a.start < b.start ∨ a.start = b.start ∧ a.stop ≤ b.stop) ∧
        (∀ range, sorted.filter (·.span == range) = edits.filter (·.span == range)) ∧
        (∀ others, edits.Perm others → (edits.map Edit.span).Nodup → check file others = .ok sorted) ∧
        ∀ source start stop, start ≤ stop → Text.cutsAt source start = true →
          Text.cutsAt source stop = true →
          (∀ edit ∈ edits, edit.span.fits source = true ∧ start ≤ edit.start ∧ edit.stop ≤ stop) →
          Text.slice source start stop =
            rewritten source (fun edit => Text.slice source edit.start edit.stop) start stop sorted ∧
          Piece.code (Piece.splice source start stop sorted) =
            rewritten source (fun edit => edit.text.toList) start stop sorted := by
  have perm := List.mergeSort_perm edits before
  constructor
  · rw [check_ok_iff upright]
    constructor <;> refine fun all => all.imp_of_mem fun memberA memberB => ?_
    · exact (clear_iff_not_overlaps (upright _ memberA) (upright _ memberB)).mp
    · exact (clear_iff_not_overlaps (upright _ memberA) (upright _ memberB)).mpr
  · intro sorted checked
    obtain ⟨rfl,apart⟩ := check_eq_ok checked
    refine ⟨perm,?_,filter_sort edits,fun others moved distinct => ?_,?_⟩
    · simpa [before] using sort_pairwise edits
    · rw [check,sort_eq_of_perm moved distinct]
      exact checked
    · intro source start stop low opens closes inside
      refine ⟨(rewritten_ranges opens closes low ?_ ?_ apart).symm,code_splice source start stop _⟩
      · exact fun edit member => (inside edit (perm.mem_iff.mp member)).1
      · exact fun edit member => (inside edit (perm.mem_iff.mp member)).2

/-- A replacement, insertions before and after it, and a replacement of a character of two bytes, as they
were recorded. -/
def recorded : List Edit := [⟨5,9,"call()"⟩,.insert 5 "first; ",⟨0,2,"e"⟩,.insert 5 "second; ",.insert 9 ";"]

theorem recorded_spliced :
    let source := "é = f(1)\n".toList
    (recorded.Pairwise fun a b => ¬a.Overlaps b) ∧ ∃ sorted, check "" recorded = .ok sorted ∧
      sorted.filter (·.span == ⟨5,5⟩) = [.insert 5 "first; ",.insert 5 "second; "] ∧
      source = rewritten source (fun edit => Text.slice source edit.start edit.stop) 0 10 sorted ∧
      Piece.code (Piece.splice source 0 10 sorted) =
        rewritten source (fun edit => edit.text.toList) 0 10 sorted := by
  intro source
  have upright : ∀ edit ∈ recorded, edit.start ≤ edit.stop := by decide
  have clear : recorded.Pairwise fun a b => a.span.Clear b.span := by
    simp [recorded,Script.Span.Clear,Edit.span,Edit.insert]
  obtain ⟨sorted,checked⟩ := (check_ok_iff upright).mpr clear
  obtain ⟨passes,spliced⟩ := checked_edits_are_spliced "" recorded upright
  obtain ⟨-,-,stable,-,code⟩ := spliced sorted checked
  exact ⟨passes.mp ⟨sorted,checked⟩,sorted,checked,(stable ⟨5,5⟩).trans (by decide),
    code source 0 10 (by decide) (by decide) (by decide) (by decide)⟩

end Edit
end Resumable
