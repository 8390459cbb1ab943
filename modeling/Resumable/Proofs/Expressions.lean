import Resumable.Proofs.Readers
import Resumable.Script.Grammar

/-! Expressions of data are read as they are spelled. Each rule of the grammar that data passes
through has one statement here; the depth that bounds the grammar is counted along. -/
namespace Resumable.Script
open Parse List
variable {text name other : String} {texts : List String} {token : Token}
  {key : Parse.Piece (Key × List Expr)} {lexeme : Lexeme}

lemma Context.IsPlain.withIn {context : Context} (plain : context.IsPlain) :
    Context.IsPlain { context with operatorIn := true } := ⟨plain.dialect,plain.inDecorator⟩

def operandEnds : List String := [",",")","]","\x7d",";","="]

def valueEnds : List String := [",",")","]","\x7d",";"]

lemma is_of_is (is : lexeme.is text) (other : String) : lexeme.is other = (text == other) := by
  simp only [Lexeme.is,Bool.and_eq_true,beq_iff_eq] at is ⊢
  rw [is.1,is.2,Bool.true_and]

section
variable (is : texts.any lexeme.is)
include is

lemma isNot_of_any (differs : texts.contains other = false) : lexeme.is other = false := by
  obtain ⟨text,mem,is⟩ := any_eq_true.1 is
  rw [is_of_is is,beq_eq_false_iff_ne]
  rintro rfl
  rw [contains_iff_mem.2 mem] at differs
  contradiction

lemma noneOf_of_any {others : List String}
    (differ : others.all fun other => !texts.contains other) : others.any lexeme.is = false := by
  rw [any_eq_false]
  intro other mem
  have differs := all_eq_true.1 differ other mem
  rw [isNot_of_any is (by simpa using differs)]
  decide

lemma kind_of_any : lexeme.kind = .mark ∨ lexeme.kind = .word := by
  obtain ⟨text,-,is⟩ := any_eq_true.1 is
  simp only [Lexeme.is,Bool.and_eq_true,Bool.or_eq_true,beq_iff_eq] at is
  exact is.1

end

/-! The rules, as far as they are nested. A piece is read by a rule wherever it may stand. -/

variable {depth : Nat} {piece : Parse.Piece Expr}

def IsPrimary (depth : Nat) (piece : Parse.Piece Expr) : Prop :=
  ∀ d, depth ≤ d → ∀ context : Context, context.IsPlain → ∀ after,
    (Grammar.primary (Rules.deep d)).Runs context (piece.lexemes ++ after) after piece.good

def IsOperand (reader : Rules → Parse Expr) (depth : Nat) (piece : Parse.Piece Expr) : Prop :=
  ∀ d, depth ≤ d → ∀ context : Context, context.IsPlain → ∀ next after, operandEnds.any next.is →
      (reader (Rules.deep d)).Runs context (piece.lexemes ++ next :: after) (next :: after) piece.good

/-- Lexemes that start no value of data, but something else where a value may stand. -/
def notStarts : List String := [")","]","\x7d",",","...","yield","async","(","<"]

def StartsValue (lexemes : List Lexeme) : Prop :=
  ∃ lexeme rest, lexemes = lexeme :: rest ∧
    (lexeme.kind ≠ .done ∧ lexeme.kind ≠ .privateName) ∧ notStarts.any lexeme.is = false

structure IsValue (depth : Nat) (piece : Parse.Piece Expr) : Prop where
  starts : StartsValue piece.lexemes
  reads : ∀ d, depth ≤ d → ∀ context : Context, context.IsPlain → ∀ returnType next after, valueEnds.any next.is →
      (Grammar.assignment (Rules.deep d) returnType).Runs context (piece.lexemes ++ next :: after)
        (next :: after) piece.good

lemma StartsValue.opens (starts : StartsValue lexemes) : Opens lexemes := by
  obtain ⟨lexeme,rest,eq,kind,none⟩ := starts
  refine ⟨lexeme,rest,eq,kind.1,?_⟩
  rw [any_eq_false] at none ⊢
  exact fun text mem => none text (mem_of_mem_take (i := 3) mem)

lemma IsValue.mono (value : IsValue depth piece) (le : depth ≤ larger) : IsValue larger piece :=
  ⟨value.starts,fun d enough => value.reads d (le.trans enough)⟩

namespace Grammar

variable {context : Context} {next : Lexeme} {before after : List Lexeme} {r : Rules} {first d : Nat}
  {chain : Chain} {allowOptional returnType : Bool} {object : Expr} {index value : Parse.Piece Expr}
  {pieces : List (Parse.Piece Expr)} {good : Expr → Prop}

lemma runs_assignment (returnType : Bool) (after : List Lexeme) (plain : context.IsPlain)
    (value : IsValue depth piece) (enough : depth < d) (ends : valueEnds.any next.is) :
    ((Rules.deep d).assignment returnType).Runs context (piece.lexemes ++ next :: after)
      (next :: after) piece.good := by
  obtain _ | d := d
  · omega
  exact value.reads d (by omega) context plain returnType next after ends

lemma runs_expression (plain : context.IsPlain) (value : IsValue depth piece) (enough : depth < d)
    (ends : valueEnds.any next.is) (comma : next.is "," = false) :
    (expression (Rules.deep d)).Runs context (piece.lexemes ++ next :: after) (next :: after)
      piece.good := by
  refine runs_start.bind fun first _ => runs_within ?_
  have plain : Context.IsPlain { context with inDecorator := false } := ⟨plain.dialect,rfl⟩
  refine (runs_assignment _ _ plain value enough ends).bind fun result good => ?_
  refine (runs_sees ",").bind fun _ is => ?_
  rw [is,comma]
  exact runs_pure good

lemma runs_withIn {α : Type} {reader : Parse α} {good : α → Prop}
    (runs : reader.Runs { context with operatorIn := true } before after good) :
    (withIn reader).Runs context before after good := runs

lemma runs_anyWord (plain : context.IsPlain) : anyWord.Runs context (.word name :: after) after (·.name = name) := by
  refine runs_token.bind fun token shows => ?_
  have kind : token.kind = .word := shows.kind
  rw [kind,if_neg (by decide)]
  exact (runs_advance plain).bind fun _ _ => runs_pure shows.text

/-! Members and calls. -/

lemma runs_expressionTypeArguments (plain : context.IsPlain) :
    (expressionTypeArguments r).Runs context before before (· = false) := by
  refine runs_dialect.bind fun _ is => ?_
  rw [is,plain.dialect]
  exact runs_pure rfl

lemma runs_seesTemplate (kind : next.kind = .mark ∨ next.kind = .word) :
    seesTemplate.Runs context (next :: after) (next :: after) (· = false) := by
  refine runs_token.bind fun token shows => ?_
  apply runs_pure
  rcases kind with kind | kind <;> rw [shows.kind,kind] <;> rfl

section
variable (plain : context.IsPlain)
include plain

lemma loops_memberStep (ends : [".","[","?.","!"].any next.is = false)
    (kind : next.kind = .mark ∨ next.kind = .word) (chain : Chain) :
    Loops (memberStep r first allowOptional) chain context (next :: after) (next :: after) (· = chain) 1 := by
  apply loops_stop
  simp only [any_cons,any_nil,Bool.or_false,Bool.or_eq_false_iff] at ends
  refine runs_token.bind fun token shows => ?_
  simp only [shows.is,ends,Bool.false_eq_true,if_false,Bool.false_and,Bool.and_false]
  refine runs_context.bind fun _ _ => runs_dialect.bind fun _ _ => ?_
  refine (runs_seesTemplate kind).falls rfl ?_
  refine (runs_expressionTypeArguments plain).falls rfl ?_
  exact runs_pure ⟨chain,rfl,rfl⟩

lemma runs_staticMember : (staticMember first object).Runs context (.word name :: after) after fun value =>
      ∃ property span, property.name = name ∧ value = .node (.member property) span [object] := by
  refine runs_token.bind fun token shows => ?_
  have kind : token.kind = .word := shows.kind
  rw [kind,if_neg (by decide)]
  refine (runs_anyWord plain).bind fun property name => ?_
  exact (runs_spanFrom first).bind fun span _ => runs_pure ⟨property,span,name,rfl⟩

lemma runs_members_dot (ends : [".","[","?.","!"].any next.is = false) (kind : next.kind = .mark ∨ next.kind = .word) :
    (members r first allowOptional chain).Runs context
      (.mark "." :: .word name :: next :: after) (next :: after) fun result =>
        ∃ property span, property.name = name ∧ result = { chain with
            value := .node (.member property) span [chain.value], applied := none } := by
  refine Loops.runs (loops_more (next :: after) _ ?_ fun result is =>
    (loops_memberStep plain ends kind result).mono fun _ same => same ▸ is) (by simp)
  refine runs_token.bind fun token shows => ?_
  rw [shows.is,if_pos (by rfl)]
  refine (runs_advance plain).bind fun _ _ => ?_
  refine (runs_staticMember plain).bind fun value is => ?_
  obtain ⟨property,span,name,rfl⟩ := is
  exact runs_pure ⟨_,rfl,property,span,name,rfl⟩

lemma runs_indexMember (value : IsValue depth index) (enough : depth < d) :
    (indexMember (Rules.deep d) first object).Runs context
      (.mark "[" :: (index.lexemes ++ .mark "]" :: after)) after fun result =>
        ∃ value span, index.good value ∧ result = .node .index span [object,value] := by
  refine (runs_expect plain (by rfl)).bind fun _ _ => ?_
  refine (runs_withIn (runs_expression plain.withIn value enough (by rfl) (by rfl))).bind fun index good => ?_
  refine (runs_expect plain (by rfl)).bind fun _ _ => ?_
  exact (runs_spanFrom first).bind fun span _ => runs_pure ⟨index,span,good,rfl⟩

lemma runs_members_index (ends : [".","[","?.","!"].any next.is = false)
    (kind : next.kind = .mark ∨ next.kind = .word) (value : IsValue depth index) (enough : depth < d) :
    (members (Rules.deep d) first allowOptional chain).Runs context
      (.mark "[" :: (index.lexemes ++ .mark "]" :: next :: after)) (next :: after) fun result =>
        ∃ value span, index.good value ∧ result = { chain with
            value := .node .index span [chain.value,value], applied := none } := by
  refine Loops.runs (loops_more (next :: after) _ ?_ fun result is =>
    (loops_memberStep plain ends kind result).mono fun _ same => same ▸ is) (by simp)
  refine runs_token.bind fun token shows => ?_
  rw [shows.is,if_neg (by decide)]
  refine runs_context.bind fun _ is => ?_
  subst is
  simp only [shows.is,plain.inDecorator]
  rw [if_pos (by rfl)]
  refine (runs_indexMember plain value enough).bind fun _ is => ?_
  obtain ⟨index,span,good,rfl⟩ := is
  exact runs_pure ⟨_,rfl,index,span,good,rfl⟩

end

lemma valueEnds_of_endsItem (ends : endsItem next) : valueEnds.any next.is := by
  simp only [endsItem,closers,valueEnds,any_cons,any_nil,Bool.or_false, Bool.or_eq_true] at ends ⊢
  tauto

lemma takes_argument (plain : context.IsPlain) (value : IsValue depth piece) (enough : depth < d) :
    Takes (argument (Rules.deep d)) context piece := by
  intro next after ends
  obtain ⟨lexeme,rest,eq,-,none⟩ := value.starts
  have runs := runs_assignment true after plain value enough (valueEnds_of_endsItem ends)
  rw [eq,cons_append] at runs ⊢
  refine runs_start.bind fun first _ => ?_
  refine (runs_eat_other (by simpa using any_eq_false.1 none "..." (by decide))).falls rfl ?_
  exact runs

lemma runs_arguments (plain : context.IsPlain) (values : ∀ piece ∈ pieces, IsValue depth piece) (enough : depth < d) :
    (arguments (Rules.deep d)).Runs context
      (.mark "(" :: (commas pieces ++ .mark ")" :: after)) after (AllGood pieces) :=
  runs_withIn (runs_enclosed plain.withIn (by decide) (by rfl) (fun piece mem => (values piece mem).starts.opens)
    (fun piece mem => takes_argument plain.withIn (values piece mem) enough) (by rfl))

lemma loops_callStep_end {good : Chain → Prop} (ends : ["?.","("].any next.is = false)
    (runs : (members r first true chain).Runs context before (next :: after) good) :
    Loops (callStep r first) chain context before (next :: after) good 1 := by
  apply loops_stop
  simp only [any_cons,any_nil,Bool.or_false,Bool.or_eq_false_iff] at ends
  refine runs.bind fun result is => ?_
  refine (runs_sees _).falls ends.1 ?_
  refine (runs_sees _).falls ends.2 ?_
  exact runs_pure ⟨result,rfl,is⟩

lemma runs_callRest_call {good : Chain → Prop} (plain : context.IsPlain)
    (values : ∀ piece ∈ pieces, IsValue depth piece) (enough : depth < d) (ends : operandEnds.any next.is)
    (runs : (members (Rules.deep d) first true chain).Runs context before
      (.mark "(" :: (commas pieces ++ .mark ")" :: next :: after)) good)
    (bare : ∀ result, good result → result.optional = false ∧ result.applied = none) :
    (callRest (Rules.deep d) first chain).Runs context before (next :: after) fun result =>
      ∃ callee span given, good callee ∧ AllGood pieces given ∧
        result = { value := .node .call span (callee.value :: given) } := by
  refine Loops.runs (loops_more (next :: after) _ ?_ fun result is =>
    (loops_callStep_end (noneOf_of_any ends (by decide))
      ((loops_memberStep plain (noneOf_of_any ends (by decide))
        (kind_of_any ends) result).runs (by simp))).mono
      fun _ same => same ▸ is) (by simp)
  refine runs.bind fun callee is => ?_
  obtain ⟨optional,applied⟩ := bare callee is
  refine (runs_sees _).falls rfl ?_
  refine (runs_sees _).holds rfl ?_
  refine (runs_arguments plain values enough).bind fun given all => ?_
  refine (runs_spanFrom first).bind fun span _ => ?_
  exact runs_pure ⟨_,rfl,callee,span,given,is,all,by rw [optional,applied]; rfl⟩

/-! Operands and values. -/

variable {middle : List Lexeme} {strength : Nat}

lemma runs_leftSide (primary : (primary (Rules.deep d)).Runs context before middle good)
    (rest : ∀ first value, good value →
      (callRest (Rules.deep (d + 1)) first { value }).Runs context middle after fun chain =>
        chain.optional = false ∧ final chain.value) :
    (leftSide (Rules.deep (d + 1))).Runs context before after final := by
  refine runs_start.bind fun first _ => ?_
  refine Runs.bind primary fun value is => ?_
  refine (rest first value is).bind fun chain is => ?_
  rw [is.1]
  exact runs_pure is.2

lemma isOperand_leftSide (primary : IsPrimary depth piece) : IsOperand leftSide (depth + 1) piece := by
  intro d enough context plain next after ends
  obtain _ | d := d
  · omega
  refine runs_leftSide (primary d (by omega) context plain _) fun first value is => ?_
  refine ((loops_callStep_end (noneOf_of_any ends (by decide))
    ((loops_memberStep plain (noneOf_of_any ends (by decide))
      (kind_of_any ends) _).runs (by simp))).runs (by simp)).mono fun chain same => ?_
  subst same
  exact ⟨rfl,is⟩

lemma isOperand_index {object : Parse.Piece Expr} (primary : IsPrimary depth object) (value : IsValue depth index) :
    IsOperand leftSide (depth + 1)
      { lexemes := object.lexemes ++ .mark "[" :: (index.lexemes ++ [.mark "]"])
        good := fun result => ∃ left right span, object.good left ∧ index.good right ∧
          result = .node .index span [left,right] } := by
  intro d enough context plain next after ends
  obtain _ | d := d
  · omega
  simp only [append_assoc,cons_append,nil_append]
  refine runs_leftSide (primary d (by omega) context plain _) fun first left good => ?_
  refine ((loops_callStep_end (noneOf_of_any ends (by decide))
    (runs_members_index plain (noneOf_of_any ends (by decide))
      (kind_of_any ends) value (by omega))).runs (by simp)).mono fun chain is => ?_
  obtain ⟨right,span,is,rfl⟩ := is
  exact ⟨rfl,left,right,span,good,is,rfl⟩

lemma isOperand_call {callee : Parse.Piece Expr} (primary : IsPrimary depth callee)
    (values : ∀ piece ∈ pieces, IsValue depth piece) :
    IsOperand leftSide (depth + 1)
      { lexemes := callee.lexemes ++ .mark "(" :: (commas pieces ++ [.mark ")"])
        good := fun result => ∃ left given span, callee.good left ∧ AllGood pieces given ∧
          result = .node .call span (left :: given) } := by
  intro d enough context plain next after ends
  obtain _ | d := d
  · omega
  simp only [append_assoc,cons_append,nil_append]
  refine runs_leftSide (primary d (by omega) context plain _) fun first left good => ?_
  refine (runs_callRest_call plain values (by omega) ends
    ((loops_memberStep plain (by decide) (.inl rfl) _).runs (by simp)) ?_).mono fun chain is => ?_
  · rintro _ rfl
    exact ⟨rfl,rfl⟩
  · obtain ⟨_,span,given,rfl,all,rfl⟩ := is
    exact ⟨rfl,left,given,span,good,all,rfl⟩

lemma isOperand_method {object : Parse.Piece Expr} (primary : IsPrimary depth object)
    (values : ∀ piece ∈ pieces, IsValue depth piece) :
    IsOperand leftSide (depth + 1)
      { lexemes :=
          object.lexemes ++ .mark "." :: .word name :: .mark "(" :: (commas pieces ++ [.mark ")"])
        good := fun result => ∃ left property inner given span, object.good left ∧
          property.name = name ∧ AllGood pieces given ∧
          result = .node .call span (.node (.member property) inner [left] :: given) } := by
  intro d enough context plain next after ends
  obtain _ | d := d
  · omega
  simp only [append_assoc,cons_append,nil_append]
  refine runs_leftSide (primary d (by omega) context plain _) fun first left good => ?_
  refine (runs_callRest_call plain values (by omega) ends
    (runs_members_dot plain (by decide) (.inl rfl)) ?_).mono fun chain is => ?_
  · rintro _ ⟨property,inner,-,rfl⟩
    exact ⟨rfl,rfl⟩
  · obtain ⟨_,span,given,⟨property,inner,named,rfl⟩,all,rfl⟩ := is
    exact ⟨rfl,left,property,inner,given,span,good,named,all,rfl⟩

def StartsOperand (lexemes : List Lexeme) : Prop :=
  ∃ lexeme rest, lexemes = lexeme :: rest ∧
    (unaryOperators ++ ["<","await","++","--"]).any lexeme.is = false

lemma runs_unseen (no : lexeme.is word = false) (stops : rest false = pure false) :
    (sees word >>= rest).Runs context (lexeme :: after) (lexeme :: after) (· = false) := by
  refine (runs_sees word).bind fun _ is => ?_
  rw [is,no,stops]
  exact runs_pure rfl

lemma runs_update (plain : context.IsPlain)
    (runs : (leftSide (Rules.deep d)).Runs context (lexeme :: before) (next :: after) good)
    (noneBefore : ["++","--"].any lexeme.is = false)
    (noneAfter : ["++","--"].any next.is = false) :
    (update (Rules.deep (d + 1))).Runs context (lexeme :: before) (next :: after) good := by
  refine runs_start.bind fun first _ => (runs_seesAny _).falls noneBefore ?_
  refine runs_dialect.bind fun dialect is => (runs_sees _).bind fun _ _ => ?_
  rw [is,plain.dialect,if_neg (by simp [plainDialect])]
  refine Runs.bind runs fun value good => ?_
  refine runs_token.bind fun token shows => ?_
  rw [shows.isAny,noneAfter,if_neg (by simp)]
  exact runs_pure good

lemma isOperand_unary (operand : IsOperand leftSide depth piece)
    (starts : StartsOperand piece.lexemes) : IsOperand unary (depth + 1) piece := by
  intro d enough context plain next after ends
  obtain _ | d := d
  · omega
  obtain ⟨lexeme,rest,eq,none⟩ := starts
  have runs := operand d (by omega) context plain next after ends
  rw [eq,cons_append] at runs ⊢
  simp only [any_append,any_cons,any_nil,Bool.or_false,Bool.or_eq_false_iff] at none
  refine runs_token.bind fun token shows => ?_
  simp only [shows.isAny,shows.is,none,Bool.false_eq_true,if_false,Bool.false_and]
  refine runs_dialect.bind fun _ _ => (runs_unseen none.2.2.1 (by rfl)).falls rfl ?_
  exact runs_update plain runs (by simp [none]) (noneOf_of_any ends (by decide))

lemma isOperand_negation (operand : IsOperand unary depth piece) : IsOperand unary (depth + 1)
      { lexemes := .mark "-" :: piece.lexemes
        good := fun result => ∃ value span, piece.good value ∧ result = .node (.unary "-") span [value] } := by
  intro d enough context plain next after ends
  obtain _ | d := d
  · omega
  refine runs_token.bind fun token shows => ?_
  rw [shows.isAny,if_pos (by rfl)]
  refine (runs_advance plain).bind fun _ _ => ?_
  refine Runs.bind (operand d (by omega) context plain next after ends) fun value is => ?_
  refine (runs_spanFrom _).bind fun span _ => ?_
  exact runs_pure ⟨value,span,is,by rw [shows.text]; rfl⟩

lemma operatorStrength?_eq_none (shows : token.Shows next) (ends : operandEnds.any next.is) :
    operatorStrength? token = none := by
  rw [operatorStrength?,Option.map_eq_none_iff,List.find?_eq_none]
  intro entry mem
  have none := any_eq_false.1 (noneOf_of_any ends (show (operatorStrengths.map (·.1)).all _ = true by decide))
    entry.1 (mem_map_of_mem mem)
  rwa [shows.is]

lemma runs_joinClosingAngle (no : next.is ">" = false) :
    joinClosingAngle.Runs context (next :: after) (next :: after) fun _ => True := by
  refine runs_token.bind fun token shows => ?_
  rw [shows.is,no,if_neg (by decide)]
  exact runs_pure trivial

lemma runs_operatorsRest {value : Expr} (ends : operandEnds.any next.is) (is : good value) :
    (operatorsRest r first strength value).Runs context (next :: after) (next :: after) good := by
  refine Loops.runs (loops_stop ?_) (by simp)
  refine (runs_joinClosingAngle (isNot_of_any ends (by decide))).bind fun _ _ => ?_
  refine runs_token.bind fun token shows => runs_context.bind fun _ _ => ?_
  rw [operatorStrength?_eq_none shows ends]
  exact runs_pure ⟨value,rfl,is⟩

lemma runs_operators (kind : lexeme.kind ≠ .privateName) (ends : operandEnds.any next.is)
    (runs : (unary (Rules.deep d)).Runs context (lexeme :: before) (next :: after) good) :
    (operators (Rules.deep d) strength).Runs context (lexeme :: before) (next :: after) good := by
  have other : (lexeme.kind == .privateName) = false := by simpa using kind
  have first : Runs (do
      if (← Parse.context).operatorIn && (← seesKind .privateName) then privateOperand
      else unary (Rules.deep d)) context (lexeme :: before) (next :: after) good := by
    refine runs_context.bind fun _ _ => (runs_seesKind _).bind fun _ is => ?_
    rw [is,other,Bool.and_false,if_neg (by decide)]
    exact runs
  exact runs_start.bind fun _ _ => first.bind fun value is => runs_operatorsRest ends is

/-! Assignments. -/

lemma runs_arrowCertainty (none : ["async","(","<"].any lexeme.is = false) :
    arrowCertainty.Runs context (lexeme :: after) (lexeme :: after) (· = .no) := by
  intro state faces
  have is (text : String) (mem : text ∈ ["async","(","<"]) : state.token.is text = false := by
    rw [faces.ahead.1.is]
    simpa using any_eq_false.1 none text mem
  refine ⟨.no,state,?_,faces,rfl⟩
  simp [arrowCertainty,sees,token,bind,pure,is]

lemma runs_assignmentRest {value : Expr} (ends : valueEnds.any next.is) (is : good value) :
    (assignmentRest r first returnType value).Runs context (next :: after) (next :: after)
      good := by
  refine runs_token.bind fun token shows => ?_
  have arrow : token.is "=>" = false := shows.is _ ▸ isNot_of_any ends (by decide)
  have assigns : token.isAny assignmentOperators = false := shows.isAny _ ▸ noneOf_of_any ends (by decide)
  have question : token.is "?" = false := shows.is _ ▸ isNot_of_any ends (by decide)
  simp only [arrow,assigns,question,Bool.false_eq_true,if_false]
  split <;> exact runs_pure is

lemma runs_assignment_of (starts : StartsValue before) (ends : operandEnds.any next.is)
    (runs : (unary (Rules.deep d)).Runs context (before ++ next :: middle) (next :: middle) good)
    (more : ∀ first value, good value →
      (assignmentRest (Rules.deep (d + 1)) first returnType value).Runs context (next :: middle) rest better) :
    (assignment (Rules.deep (d + 1)) returnType).Runs context (before ++ next :: middle) rest
      better := by
  obtain ⟨lexeme,others,rfl,kind,none⟩ := starts
  have no (text : String) (mem : text ∈ notStarts) : lexeme.is text = false := by
    simpa using any_eq_false.1 none text mem
  refine (runs_unseen (no "yield" (by decide)) (by rfl)).falls rfl ?_
  have noArrow : ["async","(","<"].any lexeme.is = false := by
    simp [no "async" (by decide),no "(" (by decide),no "<" (by decide)]
  refine (runs_arrowCertainty noArrow).bind fun _ is => ?_
  subst is
  refine (runs_unseen (no "async" (by decide)) (by rfl)).falls rfl ?_
  refine runs_start.bind fun first _ => ?_
  exact Runs.bind (runs_operators kind.2 ends runs) fun value is => more first value is

lemma isValue_of_unary (operand : IsOperand unary depth piece)
    (starts : StartsValue piece.lexemes) : IsValue (depth + 1) piece := by
  refine ⟨starts,fun d enough context plain returnType next after ends => ?_⟩
  obtain _ | d := d
  · omega
  have wide : operandEnds.any next.is := by
    rw [show operandEnds = valueEnds ++ ["="] from rfl,any_append,ends,Bool.true_or]
  exact runs_assignment_of starts wide (operand d (by omega) context plain next after wide)
    fun first value is => runs_assignmentRest ends is

lemma runs_asTarget_index {span : Span} :
    (asTarget Target.ofExpr (.node .index span parts)).Runs context before before (· = .node .index span parts) := by
  have converts : Target.ofExpr (.node .index span parts) = .ok { value := .node .index span parts } := by
    simp only [Target.ofExpr,Target.ofSimple]
  rw [asTarget,converts]
  intro state faces
  refine ⟨_,_,rfl,⟨faces.ahead,faces.tokenFaults,faces.faults,?_⟩,rfl⟩
  simp only [faces.patternOnly,filter_nil]

lemma isValue_assign (operand : IsOperand unary depth target) (starts : StartsValue target.lexemes)
    (isIndex : ∀ left, target.good left →
      ∃ span parts, left = .node .index span parts) (isValue : IsValue depth value) :
    IsValue (depth + 1)
      { lexemes := target.lexemes ++ .mark "=" :: value.lexemes
        good := fun result => ∃ span left right, target.good left ∧ value.good right ∧
          result = .assign true span left right } := by
  constructor
  · obtain ⟨lexeme,rest,eq,is⟩ := starts
    exact ⟨lexeme,rest ++ .mark "=" :: value.lexemes,by rw [eq,cons_append],is⟩
  intro d enough context plain returnType next after ends
  obtain _ | d := d
  · omega
  simp only [append_assoc,cons_append]
  refine runs_assignment_of starts (by rfl) (operand d (by omega) context plain _ _ (by rfl)) fun first left good => ?_
  refine runs_token.bind fun token shows => ?_
  obtain ⟨leftSpan,parts,rfl⟩ := isIndex left good
  have isPlain : token.is "=" = true := shows.is _
  have assigns : token.isAny assignmentOperators = true := shows.isAny _
  simp only [assigns,isPlain,if_true]
  refine runs_asTarget_index.bind fun _ is => ?_
  subst is
  refine (runs_advance plain).bind fun _ _ => ?_
  refine (runs_assignment _ _ plain isValue (by omega) ends).bind fun right is => ?_
  refine (runs_spanFrom first).bind fun span _ => ?_
  exact runs_pure ⟨span,_,right,good,is,rfl⟩

/-! What stands alone. -/

/-- Words that mean something wherever they stand, and those that mean something where a value, an
operand or a statement starts. -/
def notNames : List String :=
  reservedWords ++ notStarts ++ unaryOperators ++ ["await","++","--",".","*","let","using"]

def IsPlainName (name : String) : Prop := notNames.contains name = false

lemma IsPlainName.isNot (plain : IsPlainName name) (mem : other ∈ notNames) : (Lexeme.word name).is other = false := by
  have ne : name ≠ other := by
    rintro rfl
    rw [IsPlainName,contains_iff_mem.2 mem] at plain
    contradiction
  simpa [Lexeme.is,Lexeme.word] using ne

section
variable (isName : IsPlainName name)
include isName

lemma isName_of_shows (shows : token.Shows (.word name)) : token.isName := by
  have kind : token.kind = .word := shows.kind
  have text : token.text = name := shows.text
  have free : reservedWords.contains name = false := by
    rw [IsPlainName,notNames,append_assoc,append_assoc,contains_append, Bool.or_eq_false_iff] at isName
    exact isName.1
  rw [Token.isName,Token.isReserved,kind,text,free,Bool.and_false]
  rfl

lemma runs_checkName (shows : token.Shows (.word name)) :
    (checkName awaits yields token).Runs context before before fun _ => True := by
  have await : token.is "await" = false := shows.is _ ▸ isName.isNot (by decide)
  have yield : token.is "yield" = false := shows.is _ ▸ isName.isNot (by decide)
  rw [checkName,await,yield,Bool.and_false,Bool.and_false]
  exact runs_pure trivial

lemma runs_boundName (plain : context.IsPlain) :
    boundName.Runs context (.word name :: after) after (·.name = name) := by
  refine runs_token.bind fun token shows => ?_
  rw [isName_of_shows isName shows,if_neg (by decide)]
  refine runs_context.bind fun _ _ => (runs_checkName isName shows).bind fun _ _ => ?_
  exact (runs_advance plain).bind fun _ _ => runs_pure shows.text

lemma isPrimary_name : IsPrimary 0
    { lexemes := [.word name], good := fun result => ∃ id, id.name = name ∧ result = .name id } := by
  intro d _ context plain after
  refine runs_token.bind fun token shows => ?_
  have kind : token.kind = .word := shows.kind
  have no (text : String) (mem : text ∈ notNames) : token.is text = false := shows.is _ ▸ isName.isNot mem
  have notBoolean : token.isAny ["true","false"] = false := by
    simp [Token.isAny,no "true" (by decide),no "false" (by decide)]
  rw [kind]
  simp only [no "this" (by decide),no "null" (by decide),notBoolean,no "function" (by decide),
    no "class" (by decide),no "new" (by decide),no "super" (by decide),no "import" (by decide),
    no "async" (by decide),Bool.false_eq_true,if_false,Bool.false_and]
  refine (runs_look _).bind fun _ _ => ?_
  exact (runs_boundName isName plain).bind fun id named => runs_pure ⟨id,named,rfl⟩

end

lemma isPrimary_string : IsPrimary 0
      { lexemes := [.string text], good := fun result => ∃ span, result = .string text span } := by
  intro d _ context plain after
  refine runs_token.bind fun token shows => ?_
  rw [show token.kind = .string from shows.kind]
  refine (runs_advance plain).bind fun _ _ => runs_pure ⟨token.span,?_⟩
  rw [shows.text]
  rfl

lemma isPrimary_number {value : Number} : IsPrimary 0
      { lexemes := [.number value], good := fun result => ∃ span, result = .number value span } := by
  intro d _ context plain after
  refine runs_token.bind fun token shows => ?_
  rw [show token.kind = .number from shows.kind]
  refine (runs_advance plain).bind fun _ _ => runs_pure ⟨token.span,?_⟩
  rw [shows.value]
  rfl

lemma isPrimary_null : IsPrimary 0
      { lexemes := [.word "null"], good := fun result => ∃ span, result = .null span } := by
  intro d _ context plain after
  refine runs_token.bind fun token shows => ?_
  rw [show token.kind = .word from shows.kind]
  simp only [shows.is]
  rw [if_neg (by decide),if_pos (by rfl)]
  exact (runs_advance plain).bind fun _ _ => runs_pure ⟨token.span,rfl⟩

lemma isPrimary_boolean {value : Bool} : IsPrimary 0
      { lexemes := [.word (if value then "true" else "false")]
        good := fun result => ∃ span, result = .boolean value span } := by
  intro d _ context plain after
  refine runs_token.bind fun token shows => ?_
  rw [show token.kind = .word from shows.kind]
  simp only [shows.is,shows.isAny]
  rw [if_neg (by cases value <;> decide),if_neg (by cases value <;> decide),
    if_pos (by cases value <;> rfl)]
  refine (runs_advance plain).bind fun _ _ => runs_pure ⟨token.span,?_⟩
  rw [shows.text]
  cases value <;> rfl

lemma takes_arrayItem (plain : context.IsPlain) (value : IsValue depth piece) (enough : depth < d) :
    Takes (arrayItem (Rules.deep d)) context piece := by
  intro next after ends
  obtain ⟨lexeme,rest,eq,-,none⟩ := value.starts
  have runs := takes_argument plain value enough next after ends
  rw [eq,cons_append] at runs ⊢
  have comma : lexeme.is "," = false := by simpa using any_eq_false.1 none "," (by decide)
  refine runs_token.bind fun token shows => ?_
  rw [shows.is,comma,if_neg (by decide)]
  exact runs

lemma isPrimary_array (values : ∀ piece ∈ pieces, IsValue depth piece) : IsPrimary (depth + 1)
      { lexemes := .mark "[" :: (commas pieces ++ [.mark "]"])
        good := fun result => ∃ span items, AllGood pieces items ∧ result = .node .array span items } := by
  intro d enough context plain after
  simp only [cons_append,append_assoc,nil_append]
  refine runs_token.bind fun token shows => ?_
  rw [show token.kind = .mark from shows.kind]
  simp only [shows.is]
  rw [if_neg (by decide),if_pos (by rfl)]
  refine runs_start.bind fun first _ => ?_
  refine (runs_withIn (runs_enclosed plain.withIn (by decide) (by rfl)
    (fun piece mem => (values piece mem).starts.opens)
    (fun piece mem => takes_arrayItem plain.withIn (values piece mem) enough) (by rfl))).bind fun items all => ?_
  exact (runs_spanFrom first).bind fun span _ => runs_pure ⟨span,items,all,rfl⟩

/-! Properties. -/

/-- A key that is no word, which could be read in other ways. -/
structure IsKey (depth : Nat) (key : Parse.Piece (Key × List Expr)) : Prop where
  starts : ∃ lexeme rest, key.lexemes = lexeme :: rest ∧ (lexeme.kind = .string ∨ lexeme = .mark "[")
  reads : ∀ d, depth ≤ d → ∀ context : Context, context.IsPlain → ∀ after,
    (propertyName (Rules.deep d)).Runs context (key.lexemes ++ after) after key.good

lemma isKey_string : IsKey depth
      { lexemes := [.string text], good := fun key => ∃ span, key = (.string text span, []) } := by
  refine ⟨⟨_,[],rfl,.inl rfl⟩,fun d _ context plain after => ?_⟩
  refine runs_token.bind fun token shows => ?_
  rw [show token.kind = .string from shows.kind]
  refine (runs_advance plain).bind fun _ _ => runs_pure ⟨token.span,?_⟩
  rw [shows.text]
  rfl

lemma isKey_computed (value : IsValue depth
      { lexemes := [.string text], good := fun result => ∃ span, result = .string text span }) :
    IsKey (depth + 1)
      { lexemes := [.mark "[",.string text,.mark "]"]
        good := fun key => ∃ outer inner, key = (.computed (some text) outer, [.string text inner]) } := by
  refine ⟨⟨_,_,rfl,.inr rfl⟩,fun d enough context plain after => ?_⟩
  have computed : (computedKey (Rules.deep d)).Runs context (.mark "[" :: .string text :: .mark "]" :: after) after
      fun result => ∃ span, result = .string text span := by
    refine (runs_expect plain (by rfl)).bind fun _ _ => ?_
    refine (runs_withIn (runs_assignment true after plain.withIn value enough (by rfl))).bind fun key is => ?_
    exact (runs_expect plain (by rfl)).bind fun _ _ => runs_pure is
  refine runs_token.bind fun token shows => ?_
  rw [show token.kind = .mark from shows.kind]
  simp only [shows.is]
  rw [if_pos (by rfl)]
  refine computed.bind fun key is => ?_
  obtain ⟨span,rfl⟩ := is
  exact runs_pure ⟨span,span,rfl⟩

lemma isNot_of_startsKey (starts : lexeme.kind = .string ∨ lexeme = .mark "[") (ne : text ≠ "[") :
    lexeme.is text = false := by
  rcases starts with kind | rfl
  · simp [Lexeme.is,kind]
  · simpa [Lexeme.is,Lexeme.mark] using ne.symm

def property (key : Parse.Piece (Key × List Expr)) (value : Parse.Piece Expr) : Parse.Piece Expr where
  lexemes := key.lexemes ++ .mark ":" :: value.lexemes
  good := fun result => ∃ name parts right span, key.good (name, parts) ∧ value.good right ∧
    result = .node (.property .plain name) span (parts ++ [right])

lemma runs_namedProperty (first : Nat) (after : List Lexeme) (plain : context.IsPlain)
    (isKey : IsKey depth key) (isValue : IsValue depth value) (enough : depth < d)
    (ends : valueEnds.any next.is) :
    (namedProperty (Rules.deep d) first false).Runs context
      ((property key value).lexemes ++ next :: after) (next :: after) (property key value).good := by
  obtain ⟨lexeme,rest,eq,starts⟩ := isKey.starts
  have reads := isKey.reads d enough.le context plain (.mark ":" :: (value.lexemes ++ next :: after))
  simp only [property,append_assoc,cons_append]
  rw [eq,cons_append] at reads ⊢
  refine (runs_eat_other (isNot_of_startsKey starts (by decide))).bind fun _ is => ?_
  subst is
  refine runs_token.bind fun token shows => runs_context.bind fun _ _ => ?_
  have notName : token.isName = false := by
    rw [Token.isName,shows.kind]
    rcases starts with kind | rfl
    · rw [kind]; rfl
    · rfl
  refine reads.bind fun pair is => (runs_seesAny _).bind fun _ no => ?_
  obtain ⟨name,parts⟩ := pair
  subst no
  rw [if_neg (by decide),notName]
  refine (runs_sees _).bind fun _ _ => (runs_expect plain (by rfl)).bind fun _ _ => ?_
  refine (runs_assignment true after plain isValue enough ends).bind fun right good => ?_
  exact (runs_spanFrom first).bind fun span _ => runs_pure ⟨name,parts,right,span,is,good,rfl⟩

lemma takes_propertyItem (plain : context.IsPlain) (isKey : IsKey depth key)
    (isValue : IsValue depth value) (enough : depth < d) :
    Takes (propertyItem (Rules.deep d)) context (property key value) := by
  intro next after ends
  have runs (first : Nat) := runs_namedProperty first after plain isKey isValue enough (valueEnds_of_endsItem ends)
  obtain ⟨lexeme,rest,eq,starts⟩ := isKey.starts
  have text : (property key value).lexemes ++ next :: after =
      lexeme :: (rest ++ .mark ":" :: value.lexemes ++ next :: after) := by
    rw [property,eq]; rfl
  rw [text] at runs ⊢
  generalize rest ++ .mark ":" :: value.lexemes ++ next :: after = rest at runs ⊢
  have no (text : String) (ne : text ≠ "[") := isNot_of_startsKey starts ne
  refine runs_start.bind fun first _ => (runs_sees _).falls (no _ (by decide)) ?_
  refine (runs_unseen (no "async" (by decide)) (by rfl)).bind fun _ is => ?_
  subst is
  refine (runs_unseen (no "get" (by decide)) (by rfl)).bind fun _ get =>
    (runs_unseen (no "set" (by decide)) (by rfl)).bind fun _ set => ?_
  rw [get,set,if_neg (by decide)]
  exact runs first

lemma opens_property (isKey : IsKey depth key) : Opens (property key value).lexemes := by
  obtain ⟨lexeme,rest,eq,starts⟩ := isKey.starts
  refine ⟨lexeme,rest ++ .mark ":" :: value.lexemes,by rw [property,eq]; rfl,?_,?_⟩
  · rcases starts with kind | rfl
    · rw [kind]; decide
    · decide
  · rw [any_eq_false]
    intro text mem
    rw [isNot_of_startsKey starts (by rintro rfl; revert mem; decide)]
    decide

lemma isPrimary_object {pieces : List (Parse.Piece (Key × List Expr) × Parse.Piece Expr)}
    (properties : ∀ pair ∈ pieces, IsKey depth pair.1 ∧ IsValue depth pair.2) :
    IsPrimary (depth + 1)
      { lexemes := .mark "\x7b" ::
          (commas (pieces.map fun pair => property pair.1 pair.2) ++ [.mark "\x7d"])
        good := fun result => ∃ span items, AllGood (pieces.map fun pair => property pair.1 pair.2) items ∧
            result = .node .object span items } := by
  intro d enough context plain after
  simp only [cons_append,append_assoc,nil_append]
  refine runs_token.bind fun token shows => ?_
  rw [show token.kind = .mark from shows.kind]
  simp only [shows.is]
  rw [if_neg (by decide),if_neg (by decide),if_pos (by rfl)]
  refine runs_start.bind fun first _ => ?_
  refine (runs_withIn (runs_enclosed plain.withIn (by decide) (by rfl) ?_ ?_ (by rfl))).bind
    fun items all => (runs_spanFrom first).bind fun span _ => runs_pure ⟨span,items,all,rfl⟩
  all_goals
    intro piece mem
    obtain ⟨pair,inPieces,rfl⟩ := mem_map.1 mem
    obtain ⟨isKey,isValue⟩ := properties pair inPieces
  · exact opens_property isKey
  · exact takes_propertyItem plain.withIn isKey isValue enough

/-! Calls that have a word of their own. -/

lemma isPrimary_construct (isName : IsPlainName name) (values : ∀ piece ∈ pieces, IsValue depth piece) :
    IsPrimary (depth + 1)
      { lexemes := .word "new" :: .word name :: .mark "(" :: (commas pieces ++ [.mark ")"])
        good := fun result => ∃ span id given, id.name = name ∧ AllGood pieces given ∧
          result = .node .construct span (.name id :: given) } := by
  intro d enough context plain after
  obtain _ | d := d
  · omega
  simp only [cons_append,append_assoc,nil_append]
  refine runs_token.bind fun token shows => ?_
  rw [show token.kind = .word from shows.kind]
  simp only [shows.is,shows.isAny]
  repeat rw [if_neg (by decide)]
  rw [if_pos (by rfl)]
  refine runs_start.bind fun first _ => (runs_expect plain (by rfl)).bind fun _ _ => ?_
  refine (runs_eat_other (isName.isNot (by decide))).falls rfl ?_
  refine runs_start.bind fun calleeStart _ => ?_
  refine Runs.bind (isPrimary_name isName d (by omega) context plain _) fun left is => ?_
  obtain ⟨id,named,rfl⟩ := is
  refine ((loops_memberStep plain (by decide) (.inl rfl) _).runs (by simp)).bind fun chain is => ?_
  subst is
  refine (runs_sees _).falls rfl ?_
  have given : Runs (do if ← sees "(" then arguments (Rules.deep (d + 1)) else return [])
      context (.mark "(" :: (commas pieces ++ .mark ")" :: after)) after (AllGood pieces) := by
    refine (runs_sees _).holds rfl ?_
    exact runs_arguments plain values enough
  refine given.bind fun given all => ?_
  exact (runs_spanFrom first).bind fun span _ => runs_pure ⟨span,id,given,named,all,rfl⟩

lemma isPrimary_load (nonempty : pieces ≠ []) (values : ∀ piece ∈ pieces, IsValue depth piece) : IsPrimary (depth + 1)
      { lexemes := .word "import" :: .mark "(" :: (commas pieces ++ [.mark ")"])
        good := fun result => ∃ span given, AllGood pieces given ∧ result = .node .load span given } := by
  intro d enough context plain after
  simp only [cons_append,append_assoc,nil_append]
  refine runs_token.bind fun token shows => ?_
  rw [show token.kind = .word from shows.kind]
  simp only [shows.is,shows.isAny]
  repeat rw [if_neg (by decide)]
  rw [if_pos (by rfl)]
  refine runs_start.bind fun first _ => (runs_expect plain (by rfl)).bind fun _ _ => ?_
  refine (runs_eat_other (by decide)).falls rfl ?_
  refine (runs_require (by rfl)).bind fun _ _ => ?_
  refine (runs_withIn (runs_enclosed plain.withIn (by decide) (by rfl)
    (fun piece mem => (values piece mem).starts.opens) (fun piece mem next after ends => runs_assignment true after
      plain.withIn (values piece mem) enough (valueEnds_of_endsItem ends)) (by rfl))).bind fun given all => ?_
  have some : given.isEmpty = false := by
    cases all with
    | nil => contradiction
    | cons => rfl
  rw [some,if_neg (by decide)]
  exact (runs_spanFrom first).bind fun span _ => runs_pure ⟨span,given,all,rfl⟩

end Grammar
end Resumable.Script
