import Resumable.Proofs.Expressions

/-! Scripts of data are read as they are spelled: statements that are expressions, and functions that
load a module. -/
namespace Resumable.Script
open Parse List
variable {pieces : List (Parse.Piece Stmt)} {text : List Char}

namespace Grammar

variable {context : Context} {depth d : Nat} {next lexeme : Lexeme} {before after rest : List Lexeme}
  {r : Rules} {first : Nat} {piece : Parse.Piece Expr} {good : Stmt → Prop} {braced : Bool} {name : String}

structure IsStatement (depth : Nat) (piece : Parse.Piece Stmt) : Prop where
  starts : ∃ lexeme rest, piece.lexemes = lexeme :: rest ∧ lexeme.kind ≠ .done
  reads : ∀ d, depth ≤ d → ∀ context : Context, context.IsPlain → ∀ after,
    (statement (Rules.deep d) false).Runs context (piece.lexemes ++ after) after piece.good

/-! Expressions as statements. -/

/-- Lexemes that start a statement which is no expression, or may do so. -/
def statementWords : List String :=
  ["\x7b",";","if","do","while","for","break","continue","with","switch","throw","try",
   "debugger","class","export","return","var","const","function","@","import","let",
   "async","using","await"]

lemma runs_endStatement (plain : context.IsPlain) :
    endStatement.Runs context (.mark ";" :: after) after fun _ => True := by
  refine (runs_eat plain (by rfl)).bind fun _ is => ?_
  have atEnd : atStatementEnd.Runs context after after fun _ => True := runs_token_any.bind fun _ _ => runs_pure trivial
  refine atEnd.bind fun _ _ => ?_
  rw [is,if_neg (by simp)]
  exact runs_pure trivial

lemma runs_expressionStatement (after : List Lexeme) (plain : context.IsPlain)
    (value : IsValue depth piece) (enough : depth < d) :
    (expressionStatement (Rules.deep d)).Runs context (piece.lexemes ++ .mark ";" :: after) after
      fun result => ∃ value span, piece.good value ∧ result = .expression value span := by
  refine runs_start.bind fun first _ => ?_
  refine (runs_withIn (runs_expression plain.withIn value enough (by rfl) (by rfl))).bind fun value good => ?_
  have ends : Runs (do
      endStatement
      return Stmt.expression value (← spanFrom first)) context (.mark ";" :: after) after
      fun result => ∃ value span, piece.good value ∧ result = .expression value span :=
    (runs_endStatement plain).bind fun _ _ => (runs_spanFrom first).bind fun span _ => runs_pure ⟨value,span,good,rfl⟩
  split
  · refine (runs_eat_other (by rfl)).falls rfl ?_
    exact ends
  · exact ends

lemma runs_seesWord (no : lexeme.is word = false) : (do
      if !(← sees word) then return false
      reader).Runs context (lexeme :: before) (lexeme :: before) (· = false) := by
  refine (runs_sees _).bind fun _ is => ?_
  rw [is,no,if_pos (by rfl)]
  exact runs_pure rfl

lemma runs_wordStatement {token : Token} (single : Bool) (plain : context.IsPlain)
    (shows : token.Shows lexeme) (none : statementWords.any lexeme.is = false)
    (runs : (expressionStatement (Rules.deep d)).Runs context (lexeme :: before) after good) :
    (wordStatement (Rules.deep d) single token).Runs context (lexeme :: before) after good := by
  have no (text : String) (mem : text ∈ statementWords) : lexeme.is text = false := by
    simpa using any_eq_false.1 none text mem
  refine (runs_seesWord (no "let" (by decide))).bind fun _ is => ?_
  rw [is,Bool.and_false,if_neg (by decide)]
  refine (runs_look _).bind fun _ _ => ?_
  rw [shows.is,no "async" (by decide),Bool.false_and,if_neg (by decide)]
  refine (runs_seesWord (no "using" (by decide))).falls rfl ?_
  refine (runs_seesWord (no "await" (by decide))).falls rfl ?_
  refine runs_dialect.bind fun _ is => (runs_look _).bind fun _ _ => ?_
  rw [is,plain.dialect,if_neg (by simp [plainDialect])]
  exact runs

lemma runs_checkSingle (is : good result) : (checkSingle false result).Runs context before before good := runs_pure is

lemma isStatement_expression (value : IsValue depth piece)
    (starts : ∀ lexeme ∈ piece.lexemes.head?, statementWords.any lexeme.is = false) :
    IsStatement (depth + 1)
      { lexemes := piece.lexemes ++ [.mark ";"]
        good := fun result => ∃ value span, piece.good value ∧ result = .expression value span } := by
  obtain ⟨lexeme,rest,eq,kind,-⟩ := value.starts
  refine ⟨⟨lexeme,rest ++ [.mark ";"],by rw [eq]; rfl,kind.1⟩,?_⟩
  intro d enough context plain after
  have none := starts lexeme (by rw [eq]; rfl)
  have runs := runs_expressionStatement after plain value enough
  simp only [append_assoc,cons_append,nil_append]
  rw [eq,cons_append] at runs ⊢
  refine runs_token.bind fun token shows => ?_
  have words := runs_wordStatement false plain shows none runs
  simp only [statementWords,any_cons,any_nil,Bool.or_false,Bool.or_eq_false_iff] at none
  simp only [shows.is,shows.isAny,none,any_cons,any_nil,Bool.or_false, Bool.false_eq_true,if_false]
  refine runs_dialect.bind fun _ is => ?_
  rw [is,plain.dialect,if_neg (by simp [plainDialect])]
  exact words.bind fun result good => runs_checkSingle good

/-! Functions that load a module. -/

lemma runs_atStatementEnd (kind : lexeme.kind ≠ .done) (none : [";","\x7d"].any lexeme.is = false) :
    atStatementEnd.Runs context ({ lexeme with sameLine := true } :: before)
      ({ lexeme with sameLine := true } :: before) (· = false) := by
  refine runs_token.bind fun token shows => runs_pure ?_
  have other : (lexeme.kind == .done) = false := by simpa using kind
  have same : [";","\x7d"].any ({ lexeme with sameLine := true } : Lexeme).is = false := none
  rw [shows.isAny,same,shows.kind,other,shows.sameLine rfl]
  rfl

lemma runs_endStatement_brace :
    endStatement.Runs context (.mark "\x7d" :: after) (.mark "\x7d" :: after) fun _ => True := by
  have atEnd : atStatementEnd.Runs context (.mark "\x7d" :: after) (.mark "\x7d" :: after) (· = true) := by
    refine runs_token.bind fun token shows => runs_pure ?_
    rw [shows.isAny]
    rfl
  refine (runs_eat_other (by rfl)).bind fun _ _ => atEnd.bind fun _ is => ?_
  rw [is,if_neg (by simp)]
  exact runs_pure trivial

lemma runs_returnStatement (after : List Lexeme) (plain : context.IsPlain) (inside : context.inFunction)
    (value : IsValue depth piece) (eq : piece.lexemes = lexeme :: rest)
    (none : [";","\x7d"].any lexeme.is = false) (enough : depth < d) :
    (returnStatement (Rules.deep d)).Runs context
      (.word "return" :: { lexeme with sameLine := true } :: (rest ++ .mark "\x7d" :: after))
      (.mark "\x7d" :: after)
      fun result => ∃ value span, piece.good value ∧ result = .returns [value] span := by
  have kind : lexeme.kind ≠ .done := by
    obtain ⟨_,_,same,kind,-⟩ := value.starts
    rw [eq] at same
    rw [(List.cons.inj same).1]
    exact kind.1
  have reads : (expression (Rules.deep d)).Runs { context with operatorIn := true }
      (piece.lexemes ++ .mark "\x7d" :: after) (.mark "\x7d" :: after) piece.good :=
    runs_expression plain.withIn value enough (by rfl) (by rfl)
  rw [eq] at reads
  refine runs_start.bind fun first _ => (runs_advance plain).bind fun _ _ => ?_
  refine runs_context.bind fun _ is => ?_
  rw [is,inside,if_neg (by decide)]
  refine (runs_atStatementEnd kind none).falls rfl ?_
  refine (runs_withIn reads.onSameLine).bind fun value good => ?_
  refine runs_endStatement_brace.bind fun _ _ => ?_
  exact (runs_spanFrom first).bind fun span _ => runs_pure ⟨value,span,good,rfl⟩

lemma runs_statement_return
    (runs : (returnStatement (Rules.deep d)).Runs context (.word "return" :: before) after good) :
    (statement (Rules.deep d) false).Runs context (.word "return" :: before) after good := by
  refine runs_token.bind fun token shows => runs_dialect.bind fun _ _ => ?_
  simp only [shows.is,shows.isAny]
  repeat rw [if_neg (by decide)]
  rw [if_pos (by rfl)]
  exact runs.bind fun _ is => runs_checkSingle is

lemma runs_statementsStep (found : List Stmt) (kind : lexeme.kind ≠ .done) (isNot : braced → lexeme.is "\x7d" = false)
    (runs : (statement (Rules.deep d) false).Runs context (lexeme :: before) after good) :
    (statementsStep (Rules.deep (d + 1)) braced found).Runs context (lexeme :: before) after
      fun next => ∃ result, next = .more result ∧ ∃ statement, good statement ∧ result = statement :: found := by
  refine runs_token.bind fun token shows => ?_
  have other : (token.kind == .done) = false := by simpa [shows.kind] using kind
  have goesOn : (braced && token.is "\x7d") = false := by
    cases braced with
    | false => rfl
    | true => rw [shows.is,isNot rfl]; rfl
  rw [other,goesOn,if_neg (by decide)]
  exact Runs.bind runs fun statement is => runs_pure ⟨_,rfl,statement,is,rfl⟩

def afterDirectives (all : List Stmt) : List String × List Stmt :=
  let directives := all.takeWhile fun statement => (directive? statement).isSome
  (directives.filterMap directive?, all.drop directives.length)

lemma runs_statements {good : List Stmt → Prop} {rounds : Nat}
    (loops : Loops (statementsStep r braced) [] context before after good rounds)
    (enough : rounds ≤ before.length + 7) :
    (statements r braced).Runs context before after fun pair => ∃ all, good all ∧ pair = afterDirectives all :=
  (loops.runs enough).bind fun all is => runs_pure ⟨all,is,rfl⟩

lemma runs_functionBody (plain : context.IsPlain) (kind : lexeme.kind ≠ .done)
    (isNot : lexeme.is "\x7d" = false) (notDirective : ∀ result, good result → directive? result = none)
    (runs : (statement (Rules.deep d) false).Runs { context with inFunction := true }
      (lexeme :: before) (.mark "\x7d" :: after) good) :
    (functionBody (Rules.deep (d + 1))).Runs context
      (.mark "\x7b" :: lexeme :: before) after fun body => ∃ result, good result ∧ body = [result] := by
  have loops : Loops (statementsStep (Rules.deep (d + 1)) true) []
      { context with inFunction := true } (lexeme :: before) (.mark "\x7d" :: after)
      (fun all => ∃ result, good result ∧ all = [result]) 2 := by
    refine loops_more _ _ (runs_statementsStep [] kind (fun _ => isNot) runs) ?_
    rintro _ ⟨statement,is,rfl⟩
    refine loops_stop (runs_token.bind fun token shows => ?_)
    rw [shows.is,if_pos (by simp [Lexeme.is,Lexeme.mark])]
    exact runs_pure ⟨_,rfl,statement,is,rfl⟩
  refine (runs_expect plain (by rfl)).bind fun _ _ => ?_
  refine (runs_within (runs_statements loops (by simp))).bind fun pair is => ?_
  obtain ⟨_,⟨result,is,rfl⟩,rfl⟩ := is
  refine (runs_expect plain (by rfl)).bind fun _ _ => runs_pure ⟨result,is,?_⟩
  simp [notDirective result is]

/-! A function without parameters. -/

section
variable (plain : context.IsPlain)
include plain

lemma runs_parameters : (parameters r).Runs context (.mark "(" :: .mark ")" :: after) after (· = []) := by
  have this : (thisParameter r).Runs context (.mark ")" :: after) (.mark ")" :: after) fun _ => True := by
    refine runs_dialect.bind fun _ is => (runs_sees _).bind fun _ _ => ?_
    rw [is,plain.dialect,if_neg (by simp [plainDialect])]
    exact runs_pure trivial
  have none : (withRest ")" (parameter r) (restPattern r)).Runs context (.mark ")" :: after)
      (.mark ")" :: after) (· = []) := by
    refine Loops.runs (loops_stop (runs_token.bind fun token shows => ?_)) (by simp)
    rw [shows.is,if_pos (by rfl)]
    exact runs_pure ⟨[],rfl,rfl⟩
  refine (runs_expect plain (by rfl)).bind fun _ _ => ?_
  refine (runs_discard this).bind fun _ _ => ?_
  refine none.bind fun params is => ?_
  exact (runs_expect plain (by rfl)).bind fun _ _ => runs_pure is

lemma runs_functionName (isName : IsPlainName name) :
    (functionName .declaration false false).Runs context (.word name :: after) after
      fun result => ∃ id, id.name = name ∧ result = some id := by
  refine runs_token.bind fun token shows => ?_
  rw [if_pos (isName_of_shows isName shows)]
  refine runs_context.bind fun _ _ => ?_
  rw [if_neg (by decide)]
  refine (runs_checkName isName shows).bind fun _ _ => ?_
  exact (runs_advance plain).bind fun _ _ => runs_pure ⟨_,shows.text,rfl⟩

lemma runs_typeParameters : (typeParameters r).Runs context before before fun _ => True := by
  refine runs_dialect.bind fun _ is => ?_
  rw [is,plain.dialect]
  exact runs_pure trivial

lemma runs_returnAnnotation : ( returnAnnotation r).Runs context before before fun _ => True := by
  refine runs_dialect.bind fun _ is => ?_
  rw [is,plain.dialect]
  exact runs_pure trivial

section
variable {good : List Stmt → Prop}
  (runs : (functionBody r).Runs { context with operatorIn := true, await := false, yield := false }
    (.mark "\x7b" :: before) after good)
include runs

lemma runs_functionRest {name : Option Ident} {role : FunctionRole} :
    (functionRest r first name false false role).Runs context (.mark "(" :: .mark ")" :: .mark "\x7b" :: before) after
    fun literal => literal.head.name = name ∧ good literal.body := by
  have inner : Context.IsPlain { context with operatorIn := true, await := false, yield := false } :=
    ⟨plain.dialect,plain.inDecorator⟩
  have parts : Runs (do
      typeParameters r
      let paramsStart ← start
      let params ← parameters r
      returnAnnotation r
      if ← sees "\x7b" then return (paramsStart, params, some (← functionBody r))
      return (paramsStart, params, none))
      { context with operatorIn := true, await := false, yield := false }
      (.mark "(" :: .mark ")" :: .mark "\x7b" :: before) after
      fun triple => ∃ body, triple.2.2 = some body ∧ good body := by
    refine (runs_typeParameters inner).bind fun _ _ => runs_start.bind fun _ _ => ?_
    refine (runs_parameters inner).bind fun _ _ => ( runs_returnAnnotation inner).bind fun _ _ => ?_
    refine (runs_sees _).holds rfl ?_
    exact runs.bind fun body is => runs_pure ⟨body,rfl,is⟩
  refine (runs_within parts).bind fun triple is => ?_
  obtain ⟨paramsStart,params,_⟩ := triple
  obtain ⟨body,rfl,is⟩ := is
  exact (runs_spanFrom first).bind fun span _ => runs_pure ⟨rfl,is⟩

lemma runs_functionLiteral (isName : IsPlainName name) :
    (functionLiteral r first false .declaration).Runs context
    (.word "function" :: .word name :: .mark "(" :: .mark ")" :: .mark "\x7b" :: before) after
    fun literal => (∃ id, literal.head.name = some id ∧ id.name = name) ∧ good literal.body := by
  refine (runs_expect plain (by rfl)).bind fun _ _ => ?_
  refine (runs_eat_other (isName.isNot (by decide))).bind fun _ is => ?_
  subst is
  refine (runs_functionName plain isName).bind fun _ is => ?_
  obtain ⟨id,named,rfl⟩ := is
  refine (runs_functionRest plain runs).mono fun literal is => ?_
  exact ⟨⟨id,is.1,named⟩,is.2⟩

end

end

def loaderOf (name : String) (lexeme : Lexeme) (rest : List Lexeme) : List Lexeme :=
  [.word "function",.word name,.mark "(",.mark ")",.mark "\x7b",.word "return"] ++
    { lexeme with sameLine := true } :: (rest ++ [.mark "\x7d"])

lemma isStatement_loader (isName : IsPlainName name) (value : IsValue depth piece)
    (eq : piece.lexemes = lexeme :: rest) (none : [";","\x7d"].any lexeme.is = false) :
    IsStatement (depth + 2)
      { lexemes := loaderOf name lexeme rest
        good := fun result => ∃ literal id value span, result = .function literal ∧
          literal.head.name = some id ∧ id.name = name ∧ literal.body = [.returns [value] span] ∧
          piece.good value } := by
  refine ⟨⟨_,_,rfl,by decide⟩,fun d enough context plain after => ?_⟩
  obtain _ | d := d
  · omega
  have inner : Context.IsPlain { context with operatorIn := true, await := false, yield := false } :=
    ⟨plain.dialect,plain.inDecorator⟩
  have inside : Context.IsPlain
      { context with operatorIn := true, await := false, yield := false, inFunction := true } :=
    ⟨plain.dialect,plain.inDecorator⟩
  have returns : (statement (Rules.deep d) false).Runs
      { context with operatorIn := true, await := false, yield := false, inFunction := true } _ _ _ :=
    runs_statement_return (runs_returnStatement after inside rfl value eq none (by omega))
  have body := runs_functionBody inner (by decide) (by decide) (by rintro _ ⟨value,span,-,rfl⟩; rfl) returns
  simp only [loaderOf,cons_append,nil_append,append_assoc]
  refine runs_token.bind fun token shows => runs_dialect.bind fun _ _ => ?_
  simp only [shows.is,shows.isAny]
  repeat rw [if_neg (by decide)]
  rw [if_pos (by rfl)]
  refine Runs.bind ((runs_functionLiteral plain body isName).bind fun literal is => ?_)
    fun result is => runs_checkSingle is
  obtain ⟨⟨id,head,named⟩,_,⟨value,span,good,rfl⟩,body⟩ := is
  exact runs_pure ⟨literal,id,value,span,rfl,head,named,body,good⟩

/-! Whole scripts. -/

lemma loops_statements (plain : context.IsPlain)
    (statements : ∀ piece ∈ pieces, IsStatement depth piece) (enough : depth < d) (found : List Stmt) :
    Loops (statementsStep (Rules.deep d) false) found context (pieces.flatMap Piece.lexemes) []
      (fun all => ∃ values, all = found.reverse ++ values ∧ AllGood pieces values)
      (pieces.length + 1) := by
  obtain _ | d := d
  · omega
  induction pieces generalizing found with
  | nil =>
    refine loops_stop (runs_token_end.bind fun token kind => ?_)
    rw [kind,if_pos (by rfl)]
    exact runs_pure ⟨_,rfl,[],by simp,.nil⟩
  | cons piece pieces ih =>
    have isStatement := statements piece mem_cons_self
    obtain ⟨lexeme,rest,eq,kind⟩ := isStatement.starts
    have reads := isStatement.reads d (by omega) context plain (pieces.flatMap Piece.lexemes)
    rw [flatMap_cons]
    rw [eq,cons_append] at reads ⊢
    refine loops_more _ _ (runs_statementsStep found kind (by simp) reads) ?_
    rintro _ ⟨statement,good,rfl⟩
    refine (ih (fun p mem => statements p (mem_cons_of_mem _ mem)) (statement :: found)).mono ?_
    rintro _ ⟨values,rfl,all⟩
    exact ⟨statement :: values,by simp,.cons good all⟩

lemma length_le_lexemes (statements : ∀ piece ∈ pieces, IsStatement depth piece) :
    pieces.length ≤ (pieces.flatMap Piece.lexemes).length := by
  induction pieces with
  | nil => rfl
  | cons piece pieces ih =>
    obtain ⟨lexeme,rest,eq,-⟩ := (statements piece mem_cons_self).starts
    have := ih fun p mem => statements p (mem_cons_of_mem _ mem)
    simp only [flatMap_cons,eq,length_append,length_cons]
    omega

end Grammar

lemma faces_initialState (lexes : Lexes false text lexemes) (noLine : ∀ rest, text ≠ '#' :: '!' :: rest) :
    (initialState plainDialect text).Faces lexemes := by
  have skip : skipFirstLine text = (0, text) := by
    rw [skipFirstLine.eq_def]
    split
    · exact absurd rfl (noLine _)
    · rfl
  have start : initialState plainDialect text =
      let reading := readAfter false 0 text
      { token := reading.token, rest := reading.rest, tokenFaults := reading.faults.reverse } := by
    rw [initialState,skip]
    rfl
  rw [start]
  cases lexemes with
  | nil =>
    obtain ⟨faults,kind⟩ := lexes.atEnd 0
    exact ⟨kind,by simp only [faults,reverse_nil],rfl,rfl⟩
  | cons lexeme lexemes =>
    obtain ⟨faults,shows,rest⟩ := lexes.next 0
    exact ⟨⟨shows,rest⟩,by simp only [faults,reverse_nil],rfl,rfl⟩

/-- A text of statements is read as these statements, if they export nothing. -/
lemma read_of_lexes {depth : Nat} (lexes : Lexes false text (pieces.flatMap Piece.lexemes))
    (statements : ∀ piece ∈ pieces, Grammar.IsStatement depth piece) (shallow : depth < 64)
    (noLine : ∀ rest, text ≠ '#' :: '!' :: rest)
    (noExports : ∀ values, AllGood pieces values → exportFaults (Grammar.afterDirectives values).2 = []) :
    ∃ program values, read plainDialect text = .ok program ∧ AllGood pieces values ∧
      (program.directives, program.body) = Grammar.afterDirectives values := by
  have plain : (topContext plainDialect).IsPlain := ⟨rfl,rfl⟩
  have deep : depth < Rules.depthFor text.length := by rw [Rules.depthFor]; omega
  have rounds := Grammar.length_le_lexemes statements
  obtain ⟨pair,state,run,faces,all,⟨values,eq,good⟩,rfl⟩ :=
    Grammar.runs_statements (Grammar.loops_statements plain statements deep [])
      (by omega) _ (faces_initialState lexes noLine)
  obtain rfl : all = values := eq
  refine ⟨{ span := ⟨0,Text.byteLength text⟩, directives := _, body := _ },all,?_,good,rfl⟩
  have faults := noExports all good
  have reads : readAs plainDialect text =
      { program := some
          { span := ⟨0,Text.byteLength text⟩
            directives := (Grammar.afterDirectives all).1
            body := (Grammar.afterDirectives all).2 }
        faults := []
        moduleSyntax := state.moduleSyntax } := by
    rw [readAs,run]
    simp [faces.tokenFaults,faces.faults,faces.patternOnly,faults,plainDialect]
  rw [read,show readEither plainDialect text = readAs plainDialect text from rfl,reads]
  rfl

end Resumable.Script
