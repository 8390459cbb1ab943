import Resumable.Payload.Reading
import Resumable.Proofs.Spelling
import Resumable.Proofs.Statements

/-! A payload is read back from its text. Each value, head and body is read by the grammar as one
expression, and from that expression as what was written. -/
namespace Resumable.Script.Grammar
open Parse List
variable {depth : Nat} {piece : Parse.Piece Expr} {better : Expr → Prop}

lemma IsOperand.imp (operand : IsOperand reader depth piece) (imp : ∀ result, piece.good result → better result) :
    IsOperand reader depth ⟨piece.lexemes,better⟩ :=
  fun d enough context plain next after ends => (operand d enough context plain next after ends).mono imp

lemma IsValue.imp (value : IsValue depth piece) (imp : ∀ result, piece.good result → better result) :
    IsValue depth ⟨piece.lexemes,better⟩ :=
  ⟨value.starts,fun d enough context plain returnType next after ends =>
    (value.reads d enough context plain returnType next after ends).mono imp⟩

lemma isValue_of_leftSide (operand : IsOperand leftSide depth piece)
    (startsOperand : StartsOperand piece.lexemes) (startsValue : StartsValue piece.lexemes)
    (imp : ∀ result, piece.good result → better result) :
    IsValue (depth + 2) ⟨piece.lexemes,better⟩ :=
  IsValue.imp (isValue_of_unary (isOperand_unary operand startsOperand) startsValue) imp

lemma isValue_of_primary (primary : IsPrimary depth piece)
    (startsOperand : StartsOperand piece.lexemes) (startsValue : StartsValue piece.lexemes)
    (imp : ∀ result, piece.good result → better result) :
    IsValue (depth + 3) ⟨piece.lexemes,better⟩ :=
  isValue_of_leftSide (isOperand_leftSide primary) startsOperand startsValue imp

variable {name word : String} {lexeme : Lexeme}

lemma startsOperand_name (isName : IsPlainName name) (rest : List Lexeme) : StartsOperand (.word name :: rest) := by
  refine ⟨_,rest,rfl,any_eq_false.2 fun other mem => ?_⟩
  rw [isName.isNot (by revert mem; revert other; decide)]
  decide

lemma startsValue_name (isName : IsPlainName name) (rest : List Lexeme) : StartsValue (.word name :: rest) := by
  refine ⟨_,rest,rfl,⟨nofun,nofun⟩,any_eq_false.2 fun other mem => ?_⟩
  rw [isName.isNot (by revert mem; revert other; decide)]
  decide

def valueWords : List String := ["null","true","false","new","import"]

lemma startsOperand_word (listed : word ∈ valueWords) (rest : List Lexeme) : StartsOperand (.word word :: rest) := by
  refine ⟨_,rest,rfl,?_⟩
  revert listed; revert word; decide

lemma startsValue_word (listed : word ∈ valueWords) (rest : List Lexeme) : StartsValue (.word word :: rest) := by
  refine ⟨_,rest,rfl,⟨nofun,nofun⟩,?_⟩
  revert listed; revert word; decide

lemma startsOperand_of_kind (kind : lexeme.kind ≠ .mark ∧ lexeme.kind ≠ .word) (rest : List Lexeme) :
    StartsOperand (lexeme :: rest) :=
  ⟨lexeme,rest,rfl,by simp [Lexeme.is,kind]⟩

lemma startsValue_of_kind (kind : lexeme.kind = .string ∨ lexeme.kind = .number) (rest : List Lexeme) :
    StartsValue (lexeme :: rest) := by
  refine ⟨lexeme,rest,rfl,?_,?_⟩ <;> rcases kind with kind | kind <;> simp [Lexeme.is,kind]

lemma isValue_name (isName : IsPlainName name) (imp : ∀ id : Ident, id.name = name → better (.name id)) :
    IsValue 3 ⟨[.word name],better⟩ := by
  refine isValue_of_primary (isPrimary_name isName) (startsOperand_name isName []) (startsValue_name isName []) ?_
  rintro _ ⟨id,named,rfl⟩
  exact imp id named

end Resumable.Script.Grammar

namespace Resumable.Payload
open Script Script.Grammar Script.Parse List
variable {leaf : Leaf} {span : Span}

/-! ### Values -/

def isLeafForm : Expr → Bool
  | .number _ _ | .string _ _ | .boolean _ _ | .null _ | .name _ => true
  | .node (.unary _) _ _ | .node .index _ _ | .node .construct _ _ => true
  | .node .call _ (callee :: _) => !Source.isAssign callee
  | _ => false

namespace Source

variable {source : Source} {value : Expr}

variable (form : isLeafForm value)
include form

lemma ungrouped_of_isLeafForm : value.ungrouped = value := by
  cases value with
  | node shape => cases shape <;> first | rfl | simp [isLeafForm] at form
  | _ => rfl

lemma argument_of_isLeafForm : source.argument value = .ok value := by
  cases value with
  | node shape => cases shape <;> first | rfl | simp [isLeafForm] at form
  | _ => rfl

lemma element_of_isLeafForm : source.element value = source.leafOf value := by
  cases value with
  | node shape => cases shape <;> first | rfl | simp [isLeafForm] at form
  | hole => simp [isLeafForm] at form
  | _ => rfl

lemma entry_of_isLeafForm : source.entry value = (source.leafOf value).map Entry.value := by
  rw [entry,ungrouped_of_isLeafForm form]
  cases value with
  | assign => simp [isLeafForm] at form
  | node shape span parts =>
    cases shape with
    | call =>
      cases parts with
      | nil => simp [isLeafForm] at form
      | cons callee given =>
        simp only [isLeafForm,Bool.not_eq_true'] at form
        simp [form]
    | _ => rfl
  | _ => rfl

lemma leaf_eq_simpleLeaf (other : ∀ span parts, value ≠ .node .construct span parts) (fuel : Nat) :
    source.leaf (fuel + 1) value = source.simpleLeaf value := by
  rw [leaf,ungrouped_of_isLeafForm form]
  cases value with
  | node shape span parts =>
    cases shape with
    | construct => exact absurd rfl (other span parts)
    | _ => rfl
  | _ => rfl

end Source

/-- What is needed to read a leaf: its loader is declared, and its numbers are exact. -/
def Leaf.Legible (source : Source) : Leaf → Prop
  | lazy target => (Keyed.get? target.loader source.loaders).isSome
  | ref slot => slot < UInt32.size
  | anchor path => ∀ index ∈ path, index < 2 ^ 53
  | _ => True

/-- An expression that is read as a leaf and is no construction. -/
structure Leaf.IsPlainlyReadFrom (leaf : Leaf) (value : Expr) : Prop where
  form : isLeafForm value
  other : ∀ span parts, value ≠ .node .construct span parts
  reads : ∀ source : Source, leaf.Legible source → source.simpleLeaf value = .ok leaf.normal

/-- An expression that is read as a leaf. A construction takes one more step. -/
structure Leaf.IsReadFrom (leaf : Leaf) (value : Expr) : Prop where
  form : isLeafForm value
  reads : ∀ (source : Source) fuel, leaf.Legible source → source.leaf (fuel + 2) value = .ok leaf.normal

variable {value : Expr} {x : Number} {values : List Expr} {target : Target}

lemma Leaf.IsPlainlyReadFrom.leaf_eq (is : leaf.IsPlainlyReadFrom value) (source : Source) (fuel : Nat)
    (legible : leaf.Legible source) : source.leaf (fuel + 1) value = .ok leaf.normal := by
  rw [Source.leaf_eq_simpleLeaf is.form is.other,is.reads source legible]

lemma Leaf.IsPlainlyReadFrom.isReadFrom (is : leaf.IsPlainlyReadFrom value) : leaf.IsReadFrom value :=
  ⟨is.form,fun source fuel => is.leaf_eq source (fuel + 1)⟩

def Leaf.piece (leaf : Leaf) : Parse.Piece Expr := ⟨leaf.lexemes,leaf.IsReadFrom⟩

/-! Numbers. -/

def magnitudeLexemes (x : Number) : List Lexeme :=
  if x.isInfinite then [.word "Infinity"] else [.number (.ofParts false x.magnitude)]

def IsMagnitude (x : Number) (value : Expr) : Prop :=
  (∃ id : Ident, x.isInfinite = true ∧ id.name = "Infinity" ∧ value = .name id) ∨
    ∃ span, x.isInfinite = false ∧ value = .number (.ofParts false x.magnitude) span

lemma isOperand_magnitude (x : Number) : IsOperand unary 2 ⟨magnitudeLexemes x,IsMagnitude x⟩ := by
  cases infinite : x.isInfinite
  · rw [magnitudeLexemes,if_neg (by simp [infinite])]
    refine IsOperand.imp (isOperand_unary (isOperand_leftSide isPrimary_number)
      (startsOperand_of_kind (by simp [Lexeme.number]) [])) ?_
    rintro _ ⟨span,rfl⟩
    exact .inr ⟨span,infinite,rfl⟩
  · rw [magnitudeLexemes,if_pos infinite]
    have isName : IsPlainName "Infinity" := by rfl
    refine IsOperand.imp (isOperand_unary (isOperand_leftSide (isPrimary_name isName))
      (startsOperand_name isName [])) ?_
    rintro _ ⟨id,named,rfl⟩
    exact .inl ⟨id,infinite,named,rfl⟩

lemma startsValue_magnitude (x : Number) : StartsValue (magnitudeLexemes x) := by
  rw [magnitudeLexemes]
  split_ifs
  · exact startsValue_name (by rfl) []
  · exact startsValue_of_kind (.inr rfl) []

lemma normal_of_not_isNaN (number : x.isNaN = false) : x.normal = x := by simp [Number.normal,number]

lemma eq_infinity (infinite : x.isInfinite = true) : x = .infinity x.isNegative := by
  simp only [Number.isInfinite,Bool.and_eq_true,beq_iff_eq,Number.biased_eq,Number.fraction_eq] at infinite
  have size : x.magnitude = 2047 * Nat.pow 2 52 := by
    simp only [Nat.pow_eq]
    omega
  rw [Number.infinity,← size,x.ofParts_magnitude]

lemma isPlainlyReadFrom_positive (number : x.isNaN = false) (positive : x.isNegative = false)
    (is : IsMagnitude x value) : (Leaf.number x).IsPlainlyReadFrom value := by
  have whole := x.ofParts_magnitude
  rw [positive] at whole
  rcases is with ⟨id,infinite,named,rfl⟩ | ⟨span,finite,rfl⟩
  · refine ⟨rfl,by simp,fun source _ => ?_⟩
    simp only [Source.simpleLeaf,Source.word,named,Leaf.normal,normal_of_not_isNaN number]
    rw [eq_infinity infinite,positive]
  · refine ⟨rfl,by simp,fun source _ => ?_⟩
    simp only [Source.simpleLeaf,Leaf.normal,normal_of_not_isNaN number,whole]

lemma isPlainlyReadFrom_negative (number : x.isNaN = false) (negative : x.isNegative = true)
    (is : IsMagnitude x value) :
    (Leaf.number x).IsPlainlyReadFrom (.node (.unary "-") span [value]) := by
  have whole := x.ofParts_magnitude
  rw [negative] at whole
  refine ⟨rfl,by simp,fun source _ => ?_⟩
  rcases is with ⟨id,infinite,named,rfl⟩ | ⟨span,finite,rfl⟩
  · simp only [Source.simpleLeaf,Source.negation,Expr.ungrouped,named,Leaf.normal, normal_of_not_isNaN number]
    rw [eq_infinity infinite,negative]
    rfl
  · have small : x.magnitude < 2 ^ 63 := Nat.mod_lt _ (by decide)
    simp only [Source.simpleLeaf,Source.negation,Expr.ungrouped,Leaf.normal,
      normal_of_not_isNaN number,Number.neg_ofParts small,whole]

lemma isValue_number (x : Number) : IsValue 4 ⟨numberLexemes x,(Leaf.number x).IsPlainlyReadFrom⟩ := by
  cases number : x.isNaN
  · have sign : numberLexemes x = (if x.isNegative then [.mark "-"] else []) ++ magnitudeLexemes x := by
      simp [numberLexemes,magnitudeLexemes,number]
    rw [sign]
    cases negative : x.isNegative
    · have value := isValue_of_unary (isOperand_magnitude x) (startsValue_magnitude x)
      exact (IsValue.imp value fun _ is => isPlainlyReadFrom_positive number negative is).mono (by decide)
    · have value := isValue_of_unary (isOperand_negation (isOperand_magnitude x)) ⟨_,_,rfl,by decide,by decide⟩
      refine IsValue.imp value ?_
      rintro _ ⟨inner,span,is,rfl⟩
      exact isPlainlyReadFrom_negative number negative is
  · have isName : IsPlainName "NaN" := by rfl
    rw [numberLexemes,if_pos number]
    refine (isValue_name isName fun id named => ?_).mono (by decide)
    refine ⟨rfl,by simp,fun source _ => ?_⟩
    simp [Source.simpleLeaf,Source.word,named,Leaf.normal,Number.normal,number]

/-! Calls and members. -/

lemma isValue_string (text : String) : IsValue 3 ⟨[.string text],fun value => ∃ span,value = .string text span⟩ :=
  isValue_of_primary isPrimary_string (startsOperand_of_kind (by simp [Lexeme.string]) [])
    (startsValue_of_kind (.inl rfl) []) fun _ is => is

lemma isValue_natural (n : Nat) : IsValue 3 ⟨[.number (.ofDecimal false n 0)],
      fun value => ∃ span,value = .number (.ofDecimal false n 0) span⟩ :=
  isValue_of_primary isPrimary_number (startsOperand_of_kind (by simp [Lexeme.number]) [])
    (startsValue_of_kind (.inr rfl) []) fun _ is => is

def IsSlot (slot : Nat) (value : Expr) : Prop :=
  ∃ (table : Ident) (outer inner : Span), table.name = "refs" ∧
    value = .node .index outer [.name table,.number (.ofDecimal false slot 0) inner]

lemma isOperand_slot (slot : Nat) : IsOperand leftSide 4 ⟨slotLexemes slot,IsSlot slot⟩ := by
  have isName : IsPlainName "refs" := by rfl
  have primary : IsPrimary 3 _ := fun d _ => isPrimary_name isName d (Nat.zero_le d)
  refine IsOperand.imp (isOperand_index primary (isValue_natural slot)) ?_
  rintro _ ⟨_,_,outer,⟨table,named,rfl⟩,⟨inner,rfl⟩,rfl⟩
  exact ⟨table,outer,inner,named,rfl⟩

lemma slot_of_isSlot {slot : Nat} (is : IsSlot slot value) (small : slot < UInt32.size) (source : Source) :
    ∃ span parts, value = .node .index span parts ∧ source.slot span parts = .ok slot := by
  obtain ⟨table,outer,inner,named,rfl⟩ := is
  refine ⟨outer,_,rfl,?_⟩
  have exact : (Number.ofDecimal false slot 0).toNat? = some slot := Number.toNat?_ofDecimal (small.trans (by decide))
  simp [Source.slot,exact,named,small]

lemma isValue_single (value : IsValue depth piece) : ∀ other ∈ [piece], IsValue depth other := by
  rintro _ (_ | ⟨_,⟨⟩⟩)
  exact value

lemma allGood_single : AllGood [piece] values ↔ ∃ value, piece.good value ∧ values = [value] := by
  simp [AllGood,forall₂_cons_left_iff]

def IsTarget (target : Target) (given : List Expr) : Prop :=
  ∃ (id : Ident) (span : Span), id.name = target.loader ∧ given = [.name id,.string target.name span]

lemma target_of_isTarget {given : List Expr} (is : IsTarget target given) {source : Source}
    (declared : (Keyed.get? target.loader source.loaders).isSome) (span : Span) :
    source.target span given = .ok target := by
  obtain ⟨id,inner,named,rfl⟩ := is
  simp [Source.target,Source.argument,named,declared,bind,Except.bind]

lemma isValue_targetCall (isName : IsPlainName name) (isLoader : IsPlainName target.loader)
    (imp : ∀ (id : Ident) span given, id.name = name → IsTarget target given →
      better (.node .call span (.name id :: given))) :
    IsValue 6 ⟨.word name :: target.lexemes,better⟩ := by
  let pieces : List (Parse.Piece Expr) :=
    [⟨[.word target.loader],fun value => ∃ id : Ident,id.name = target.loader ∧ value = .name id⟩,
     ⟨[.string target.name],fun value => ∃ span,value = .string target.name span⟩]
  have values : ∀ piece ∈ pieces, IsValue 3 piece := by
    intro piece mem
    simp only [pieces,mem_cons,not_mem_nil,or_false] at mem
    rcases mem with rfl | rfl
    · exact isValue_name isLoader fun id named => ⟨id,named,rfl⟩
    · exact isValue_string target.name
  have primary : IsPrimary 3 _ := fun d _ => isPrimary_name isName d (Nat.zero_le d)
  refine isValue_of_leftSide (isOperand_call primary values) (startsOperand_name isName _)
    (startsValue_name isName _) ?_
  rintro _ ⟨_,given,span,⟨id,named,rfl⟩,all,rfl⟩
  obtain ⟨first,rest,⟨loader,isLoader,rfl⟩,others,rfl⟩ := forall₂_cons_left_iff.1 all
  obtain ⟨second,rest,⟨inner,rfl⟩,none,rfl⟩ := forall₂_cons_left_iff.1 others
  obtain rfl := forall₂_nil_left_iff.1 none
  exact imp id span _ named ⟨loader,inner,isLoader,rfl⟩

lemma isValue_symbol (key : String) : IsValue 6 (Leaf.symbol key).piece := by
  have isName : IsPlainName "Symbol" := by rfl
  have primary : IsPrimary 3 _ := fun d _ => isPrimary_name isName d (Nat.zero_le d)
  refine isValue_of_leftSide (isOperand_method primary (isValue_single (isValue_string key)))
    (startsOperand_name isName _) (startsValue_name isName _) ?_
  rintro _ ⟨_,property,inner,given,span,⟨id,named,rfl⟩,isFor,all,rfl⟩
  obtain ⟨_,⟨place,rfl⟩,rfl⟩ := allGood_single.1 all
  apply Leaf.IsPlainlyReadFrom.isReadFrom
  refine ⟨by simp [isLeafForm,Source.isAssign,named],by simp,fun source _ => ?_⟩
  simp [Source.simpleLeaf,Source.call,named,isFor,Source.symbol,Source.argument,Leaf.normal,
    bind,Except.bind,pure,Except.pure]

lemma isValue_date (time : Number) : IsValue 8 (Leaf.date time).piece := by
  have isName : IsPlainName "Date" := by rfl
  have lexemes : (Leaf.date time).lexemes = .word "new" :: .word "Date" :: .mark "(" ::
      (commas [⟨numberLexemes time,(Leaf.number time).IsPlainlyReadFrom⟩] ++ [.mark ")"]) := by
    simp [Leaf.lexemes,commas,followed]
  rw [Leaf.piece,lexemes]
  refine isValue_of_primary (isPrimary_construct isName (isValue_single (isValue_number time)))
    (startsOperand_word (by decide) _) (startsValue_word (by decide) _) ?_
  rintro _ ⟨span,id,given,named,all,rfl⟩
  obtain ⟨value,is,rfl⟩ := allGood_single.1 all
  refine ⟨rfl,fun source fuel _ => ?_⟩
  have inner : source.leaf (fuel + 1) value = .ok (.number time.normal) := is.leaf_eq source fuel trivial
  rw [Source.leaf]
  simp [Expr.ungrouped,named,Source.argument_of_isLeafForm is.form,inner,Leaf.normal,bind, Except.bind,pure,Except.pure]

lemma joined_eq_commas {α : Type} (pieces : List (Parse.Piece α)) :
    joined (pieces.map Parse.Piece.lexemes) = commas pieces := by
  cases pieces with
  | nil => rfl
  | cons piece pieces => simp [joined,commas,followed,flatMap_map]

lemma mapM_position (source : Source) (exact : ∀ index ∈ path, index < 2 ^ 53)
    (all : path.Forall₂ (fun n value => ∃ span, value = .number (.ofDecimal false n 0) span) values) :
    values.mapM source.position = .ok path := by
  induction all with
  | nil => rfl
  | @cons n value path values is _ ih =>
    obtain ⟨span,rfl⟩ := is
    have small : n < 2 ^ 53 := exact n mem_cons_self
    rw [mapM_cons,ih fun index mem => exact index (mem_cons_of_mem _ mem)]
    simp [Source.position,Number.toNat?_ofDecimal small,bind,Except.bind,pure,Except.pure]
    omega

lemma isValue_anchor (path : List Nat) : IsValue 10 (Leaf.anchor path).piece := by
  have isName : IsPlainName "__anchor" := by rfl
  let index (n : Nat) : Parse.Piece Expr := ⟨[.number (.ofDecimal false n 0)],
    fun value => ∃ span,value = .number (.ofDecimal false n 0) span⟩
  have values : ∀ piece ∈ path.map index, IsValue 3 piece := by
    intro piece mem
    obtain ⟨n,-,rfl⟩ := mem_map.1 mem
    exact isValue_natural n
  have array := isValue_of_primary (isPrimary_array values) ⟨_,_,rfl,by decide⟩
    ⟨_,_,rfl,by decide,by decide⟩ fun _ is => is
  have primary : IsPrimary 7 _ := fun d _ => isPrimary_name isName d (Nat.zero_le d)
  have call := isOperand_call primary (isValue_single array)
  have lexemes : (Leaf.anchor path).lexemes = [.word "__anchor"] ++ .mark "(" ::
      (commas [⟨.mark "[" :: (commas (path.map index) ++ [.mark "]"]),fun _ : Expr => True⟩] ++ [.mark ")"]) := by
    have indices : joined (path.map fun n => [.number (.ofDecimal false n 0)]) = commas (path.map index) := by
      rw [← joined_eq_commas,map_map]
      rfl
    simp [Leaf.lexemes,commas,followed,indices]
  rw [Leaf.piece,lexemes]
  refine isValue_of_leftSide call (startsOperand_name isName _) (startsValue_name isName _) ?_
  rintro _ ⟨_,given,span,⟨id,named,rfl⟩,all,rfl⟩
  obtain ⟨_,⟨inner,items,good,rfl⟩,rfl⟩ := allGood_single.1 all
  apply Leaf.IsPlainlyReadFrom.isReadFrom
  refine ⟨by simp [isLeafForm,Source.isAssign],by simp,fun source legible => ?_⟩
  have read := mapM_position source legible (forall₂_map_left_iff.1 good)
  simp [Source.simpleLeaf,Source.call,named,Source.anchor,Source.argument,read,Leaf.normal,
    bind,Except.bind,pure,Except.pure]

lemma isValue_leaf (names : ∀ name ∈ leaf.loaders, IsPlainName name) : IsValue 10 leaf.piece := by
  cases leaf with
  | undefined =>
    refine (isValue_name (by rfl) fun id named => ?_).mono (by decide)
    refine Leaf.IsPlainlyReadFrom.isReadFrom ⟨rfl,by simp,fun source _ => ?_⟩
    simp [Source.simpleLeaf,Source.word,named,Leaf.normal]
  | null =>
    refine (isValue_of_primary isPrimary_null (startsOperand_word (by decide) [])
      (startsValue_word (by decide) []) ?_).mono (by decide)
    rintro _ ⟨span,rfl⟩
    exact Leaf.IsPlainlyReadFrom.isReadFrom ⟨rfl,by simp,fun source _ => rfl⟩
  | boolean value =>
    have listed : (if value then "true" else "false") ∈ valueWords := by cases value <;> decide
    refine (isValue_of_primary isPrimary_boolean (startsOperand_word listed [])
      (startsValue_word listed []) ?_).mono (by decide)
    rintro _ ⟨span,rfl⟩
    exact Leaf.IsPlainlyReadFrom.isReadFrom ⟨rfl,by simp,fun source _ => rfl⟩
  | number x => exact (IsValue.imp (isValue_number x) fun _ is => is.isReadFrom).mono (by decide)
  | string text =>
    refine (IsValue.imp (isValue_string text) ?_).mono (by decide)
    rintro _ ⟨span,rfl⟩
    exact Leaf.IsPlainlyReadFrom.isReadFrom ⟨rfl,by simp,fun source _ => rfl⟩
  | symbol key => exact (isValue_symbol key).mono (by decide)
  | date time => exact (isValue_date time).mono (by decide)
  | ref slot =>
    refine (isValue_of_leftSide (isOperand_slot slot) (startsOperand_name (by rfl) _)
      (startsValue_name (by rfl) _) fun value is => ?_).mono (by decide)
    refine Leaf.IsPlainlyReadFrom.isReadFrom ⟨?_,?_,fun source legible => ?_⟩
    · obtain ⟨table,outer,inner,named,rfl⟩ := is
      rfl
    · obtain ⟨table,outer,inner,named,rfl⟩ := is
      simp
    · obtain ⟨span,parts,rfl,read⟩ := slot_of_isSlot is legible source
      simp [Source.simpleLeaf,read,Except.map,Leaf.normal]
  | lazy target =>
    refine (isValue_targetCall (by rfl) (names _ mem_cons_self)
      fun id span given named is => ?_).mono (by decide)
    refine Leaf.IsPlainlyReadFrom.isReadFrom ⟨by simp [isLeafForm,Source.isAssign],by simp,fun source legible => ?_⟩
    simp [Source.simpleLeaf,Source.call,named,target_of_isTarget is legible,Except.map,Leaf.normal]
  | anchor path => exact isValue_anchor path

/-! ### Heads and bodies -/

inductive Head.IsReadFrom : Head → Expr → Prop
  | array (span : Span) : IsReadFrom .array (.node .array span [])
  | object (span : Span) : IsReadFrom .object (.node .object span [])
  | closure {target : Target} {id : Ident} {given : List Expr} (span : Span)
    (named : id.name = "__closure") (is : IsTarget target given) :
    IsReadFrom (.closure target) (.node .call span (.name id :: given))
  | member {target : Target} {id : Ident} {given : List Expr} (span : Span)
    (named : id.name = "__instance") (is : IsTarget target given) :
    IsReadFrom (.member target) (.node .call span (.name id :: given))

lemma isValue_head {head : Head} (names : ∀ name ∈ head.loaders, IsPlainName name) :
    IsValue 6 ⟨head.lexemes,head.IsReadFrom⟩ := by
  cases head with
  | array =>
    have none : ∀ piece ∈ ([] : List (Parse.Piece Expr)), IsValue 0 piece := by simp
    refine (isValue_of_primary (isPrimary_array none) ⟨_,_,rfl,by decide⟩
      ⟨_,_,rfl,by decide,by decide⟩ ?_).mono (by decide)
    rintro _ ⟨span,items,all,rfl⟩
    obtain rfl := forall₂_nil_left_iff.1 all
    exact .array span
  | object =>
    have none : ∀ pair ∈ ([] : List (Parse.Piece (Key × List Expr) × Parse.Piece Expr)),
        IsKey 0 pair.1 ∧ IsValue 0 pair.2 := by simp
    refine (isValue_of_primary (isPrimary_object none) ⟨_,_,rfl,by decide⟩
      ⟨_,_,rfl,by decide,by decide⟩ ?_).mono (by decide)
    rintro _ ⟨span,items,all,rfl⟩
    obtain rfl := forall₂_nil_left_iff.1 all
    exact .object span
  | closure target =>
    exact isValue_targetCall (by rfl) (names _ mem_cons_self) fun id span given named is => .closure span named is
  | member target =>
    exact isValue_targetCall (by rfl) (names _ mem_cons_self) fun id span given named is => .member span named is

section Bodies
variable {source : Source} {leaves : List Leaf} {values : List Expr} {value : Expr} {fields : List (String × Leaf)}

lemma Leaf.IsReadFrom.leafOf_eq (is : leaf.IsReadFrom value) (some : 0 < source.text.length)
    (legible : leaf.Legible source) : source.leafOf value = .ok leaf.normal := by
  obtain ⟨size,length⟩ := Nat.exists_eq_add_one.2 some
  rw [Source.leafOf,length,is.reads source size legible]

lemma mapM_element (some : 0 < source.text.length) (legible : ∀ leaf ∈ leaves, leaf.Legible source)
    (all : leaves.Forall₂ Leaf.IsReadFrom values) :
    values.mapM source.element = .ok (leaves.map Leaf.normal) := by
  induction all with
  | nil => rfl
  | @cons leaf value leaves values is _ ih =>
    have first := is.leafOf_eq some (legible leaf mem_cons_self)
    have others := ih fun other mem => legible other (mem_cons_of_mem _ mem)
    rw [mapM_cons,Source.element_of_isLeafForm is.form,first,others]
    rfl

def IsList (leaves : List Leaf) (value : Expr) : Prop :=
  ∃ span items, leaves.Forall₂ Leaf.IsReadFrom items ∧ value = .node .array span items

lemma isValue_list (names : ∀ leaf ∈ leaves, ∀ name ∈ leaf.loaders, IsPlainName name) :
    IsValue 14 ⟨listLexemes leaves,IsList leaves⟩ := by
  have each : ∀ piece ∈ leaves.map Leaf.piece, IsValue 10 piece := by
    intro piece mem
    obtain ⟨leaf,listed,rfl⟩ := mem_map.1 mem
    exact isValue_leaf (names leaf listed)
  have lexemes : listLexemes leaves = .mark "[" :: (commas (leaves.map Leaf.piece) ++ [.mark "]"]) := by
    rw [listLexemes,← joined_eq_commas,map_map]
    rfl
  rw [lexemes]
  refine isValue_of_primary (isPrimary_array each) ⟨_,_,rfl,by decide⟩ ⟨_,_,rfl,by decide,by decide⟩ ?_
  rintro _ ⟨span,items,all,rfl⟩
  rw [AllGood,forall₂_map_left_iff] at all
  exact ⟨span,items,all,rfl⟩

/-! Properties. -/

def IsKeyOf (key : String) (pair : Key × List Expr) : Prop :=
  (key ≠ "__proto__" ∧ ∃ span, pair = (.string key span, [])) ∨
    (key = "__proto__" ∧ ∃ outer inner, pair = (.computed (some key) outer, [.string key inner]))

lemma isKey_of (key : String) : IsKey 10 ⟨keyLexemes key,IsKeyOf key⟩ := by
  rw [keyLexemes]
  split_ifs with proto
  · have value : IsValue 9 _ := (isValue_string key).mono (by decide)
    obtain ⟨starts,reads⟩ := isKey_computed value
    refine ⟨starts,fun d enough context plain after => (reads d enough context plain after).mono ?_⟩
    rintro _ ⟨outer,inner,rfl⟩
    exact .inr ⟨by simpa using proto,outer,inner,rfl⟩
  · obtain ⟨starts,reads⟩ := @isKey_string key 10
    refine ⟨starts,fun d enough context plain after => (reads d enough context plain after).mono ?_⟩
    rintro _ ⟨span,rfl⟩
    exact .inl ⟨by simpa using proto,span,rfl⟩

lemma key_of_isKeyOf (is : IsKeyOf key (name, parts)) (span : Span) : source.key span name = .ok key := by
  rcases is with ⟨other,place,same⟩ | ⟨rfl,outer,inner,same⟩
  · obtain ⟨rfl,rfl⟩ := Prod.mk.inj same
    simp [Source.key,other]
  · obtain ⟨rfl,rfl⟩ := Prod.mk.inj same
    rfl

def IsField (field : String × Leaf) (value : Expr) : Prop :=
  (property ⟨keyLexemes field.1,IsKeyOf field.1⟩ field.2.piece).good value

lemma property_of_isField (is : IsField field value) (some : 0 < source.text.length)
    (legible : field.2.Legible source) :
    source.property value = .ok (field.1, field.2.normal) := by
  obtain ⟨name,parts,right,span,isKey,isLeaf,rfl⟩ := is
  have last : (parts ++ [right]).getLast? = Option.some right := by simp
  rw [Source.property,key_of_isKeyOf isKey,last]
  simp [isLeaf.leafOf_eq some legible,bind,Except.bind,pure,Except.pure]

lemma mapM_property (some : 0 < source.text.length) (legible : ∀ field ∈ fields, field.2.Legible source)
    (all : fields.Forall₂ IsField values) :
    values.mapM source.property = .ok (fields.map fun field => (field.1, field.2.normal)) := by
  induction all with
  | nil => rfl
  | @cons field value fields values is _ ih =>
    have first := property_of_isField is some (legible field mem_cons_self)
    have others := ih fun other mem => legible other (mem_cons_of_mem _ mem)
    rw [mapM_cons,first,others]
    rfl

lemma capturedItems?_of_isField (all : fields.Forall₂ IsField values) : Source.capturedItems? values = none := by
  rcases all with _ | ⟨is,_ | _⟩
  · rfl
  · obtain ⟨name,parts,right,span,isKey,isLeaf,rfl⟩ := is
    have notList : ∀ place items, right ≠ .node .array place items := by
      rintro place items rfl
      exact absurd isLeaf.form (by simp [isLeafForm])
    rcases isKey with ⟨-,place,same⟩ | ⟨-,outer,inner,same⟩
    · obtain ⟨rfl,rfl⟩ := Prod.mk.inj same
      simp only [Source.capturedItems?,nil_append,Source.ungrouped_of_isLeafForm isLeaf.form]
      split
      · exact absurd rfl (notList _ _)
      · rfl
    · obtain ⟨rfl,rfl⟩ := Prod.mk.inj same
      simp [Source.capturedItems?]
  · simp [Source.capturedItems?]

/-! Bodies. -/

structure Body.IsReadFrom (body : Body) (value : Expr) : Prop where
  form : ∃ shape span parts, value = .node shape span parts ∧ (shape = .array ∨ shape = .object)
  reads : ∀ source : Source, 0 < source.text.length → (∀ leaf ∈ body.leaves, leaf.Legible source) →
    source.body value = .ok body.normal

lemma isReadFrom_elements (is : IsList leaves value) : (Body.elements leaves).IsReadFrom value := by
  obtain ⟨span,items,all,rfl⟩ := is
  refine ⟨⟨_,_,_,rfl,.inl rfl⟩,fun source some legible => ?_⟩
  have each : items.mapM source.element = .ok (leaves.map Leaf.normal) := mapM_element some legible all
  simp [Source.body,Expr.ungrouped,each,Except.map,Body.normal]

lemma isReadFrom_captured {inner : Span} (is : IsList leaves value)
    (captured : ∃ place, key = .string "capturedArgs" place) :
    (Body.captured leaves).IsReadFrom (.node .object outer [.node (.property .plain key) inner [value]]) := by
  obtain ⟨span,items,all,rfl⟩ := is
  obtain ⟨place,rfl⟩ := captured
  refine ⟨⟨_,_,_,rfl,.inr rfl⟩,fun source some legible => ?_⟩
  have each : items.mapM source.element = .ok (leaves.map Leaf.normal) := mapM_element some legible all
  simp [Source.body,Expr.ungrouped,Source.capturedItems?,each,Except.map,Body.normal]

lemma isReadFrom_properties (all : fields.Forall₂ IsField values) :
    (Body.properties fields).IsReadFrom (.node .object span values) := by
  refine ⟨⟨_,_,_,rfl,.inr rfl⟩,fun source some legible => ?_⟩
  have each : values.mapM source.property = .ok (fields.map fun field => (field.1, field.2.normal)) :=
    mapM_property some (fun field mem => legible field.2 (mem_map_of_mem mem)) all
  simp [Source.body,Expr.ungrouped,capturedItems?_of_isField all,each,Except.map,Body.normal]

lemma isValue_properties (names : ∀ field ∈ fields, ∀ name ∈ field.2.loaders, IsPlainName name) :
    IsValue 14 ⟨(Body.properties fields).lexemes,(Body.properties fields).IsReadFrom⟩ := by
  let pair (field : String × Leaf) : Parse.Piece (Key × List Expr) × Parse.Piece Expr :=
    (⟨keyLexemes field.1,IsKeyOf field.1⟩, field.2.piece)
  have each : ∀ piece ∈ fields.map pair, IsKey 10 piece.1 ∧ IsValue 10 piece.2 := by
    intro piece mem
    obtain ⟨field,listed,rfl⟩ := mem_map.1 mem
    exact ⟨isKey_of field.1,isValue_leaf (names field listed)⟩
  have lexemes : (Body.properties fields).lexemes = .mark "\x7b" ::
      (commas ((fields.map pair).map fun pair => property pair.1 pair.2) ++ [.mark "\x7d"]) := by
    rw [Body.lexemes,← joined_eq_commas,map_map,map_map]
    rfl
  rw [lexemes]
  refine isValue_of_primary (isPrimary_object each) ⟨_,_,rfl,by decide⟩ ⟨_,_,rfl,by decide,by decide⟩ ?_
  rintro _ ⟨span,items,all,rfl⟩
  rw [AllGood,forall₂_map_left_iff,forall₂_map_left_iff] at all
  exact isReadFrom_properties all

lemma isValue_captured (names : ∀ leaf ∈ leaves, ∀ name ∈ leaf.loaders, IsPlainName name) :
    IsValue 18 ⟨(Body.captured leaves).lexemes,(Body.captured leaves).IsReadFrom⟩ := by
  let pair : Parse.Piece (Key × List Expr) × Parse.Piece Expr :=
    (⟨[.string "capturedArgs"],fun key => ∃ span,key = (.string "capturedArgs" span, [])⟩,
      ⟨listLexemes leaves,IsList leaves⟩)
  have each : ∀ piece ∈ [pair], IsKey 14 piece.1 ∧ IsValue 14 piece.2 := by
    rintro _ (_ | ⟨_,⟨⟩⟩)
    exact ⟨isKey_string,isValue_list names⟩
  have lexemes : (Body.captured leaves).lexemes = .mark "\x7b" ::
      (commas ([pair].map fun pair => property pair.1 pair.2) ++ [.mark "\x7d"]) := by
    simp [Body.lexemes,pair,commas,followed,property]
  rw [lexemes]
  refine isValue_of_primary (isPrimary_object each) ⟨_,_,rfl,by decide⟩ ⟨_,_,rfl,by decide,by decide⟩ ?_
  rintro _ ⟨outer,items,all,rfl⟩
  obtain ⟨_,⟨name,parts,right,inner,⟨place,same⟩,isList,rfl⟩,rfl⟩ := allGood_single.1 all
  obtain ⟨rfl,rfl⟩ := Prod.mk.inj same
  exact isReadFrom_captured isList ⟨place,rfl⟩

lemma isValue_body {body : Body} (names : ∀ leaf ∈ body.leaves, ∀ name ∈ leaf.loaders, IsPlainName name) :
    IsValue 18 ⟨body.lexemes,body.IsReadFrom⟩ := by
  cases body with
  | elements items => exact (IsValue.imp (isValue_list names) fun _ is => isReadFrom_elements is).mono (by decide)
  | properties fields => exact (isValue_properties fun field mem => names field.2 (mem_map_of_mem mem)).mono (by decide)
  | captured items => exact isValue_captured names

end Bodies
end Resumable.Payload
