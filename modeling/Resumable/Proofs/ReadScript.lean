import Resumable.Proofs.ReadBack
import Resumable.Proofs.Keyed

/-! A payload is read back from its text: its entries, its loaders, and the whole script. -/
namespace Resumable
open List Text
variable {slot : Nat} {body : Body} {entry : Entry} {written : Written} {rest : List Char} {following : List Lexeme}

namespace Script

lemma Lexes.wordHere (is : spellsWord name) (ends : EndsWord rest) (lexes : Lexes false rest following) :
    Lexes false (name.toList ++ rest) ({ Lexeme.word name with sameLine := true } :: following) := by
  have begins := begins_word (isWord_of_spellsWord is) ends
  rw [String.ofList_toList] at begins
  exact .token ⟨begins.here,begins.read,begins.shorter⟩ (fun _ => rfl) lexes

lemma Lexes.ne_shellLine (lexes : Lexes false text lexemes) (rest : List Char) : text ≠ '#' :: '!' :: rest := by
  rintro rfl
  cases lexes with
  | token begins =>
    obtain ⟨span,read⟩ := begins.read 0 false
    have noName : isIdentifierStart '#' = false ∧ isIdentifierStart '!' = false := by decide
    have noNumber : startsNumber ('#' :: '!' :: rest) = false := rfl
    simp [readHere,noName,noNumber,readPrivateName] at read

lemma Grammar.IsStatement.imp (statement : Grammar.IsStatement depth piece)
    (imp : ∀ result, piece.good result → better result) (le : depth ≤ most) :
    Grammar.IsStatement most ⟨piece.lexemes,better⟩ :=
  ⟨statement.starts,fun d enough context plain after =>
    (statement.reads d (le.trans enough) context plain after).mono imp⟩

end Script

namespace Payload
open Script Script.Grammar Script.Parse Keyed
variable {text : String} {leaf : Leaf} {α : Type} {values : List Stmt}

/-! ### Entries -/

lemma isValue_slot (slot : Nat) : IsValue 6 ⟨slotLexemes slot,IsSlot slot⟩ :=
  isValue_of_leftSide (isOperand_slot slot) (startsOperand_name (by rfl) _) (startsValue_name (by rfl) _) fun _ is => is

def Entry.Legible (source : Source) : Entry → Prop
  | allocate slot head => slot < UInt32.size ∧ ∀ name ∈ head.loaders, (get? name source.loaders).isSome
  | fill slot body => slot < UInt32.size ∧ ∀ leaf ∈ body.leaves, leaf.Legible source
  | value leaf => leaf.Legible source

def Entry.IsReadFrom (entry : Entry) (value : Expr) : Prop :=
  ∀ source : Source, 0 < source.text.length → entry.Legible source → source.entry value = .ok entry.normal

def Entry.piece (entry : Entry) : Parse.Piece Expr := ⟨entry.lexemes,entry.IsReadFrom⟩

variable {head : Head} {left right value : Expr} {span : Span} {loader : Loader}

lemma isReadFrom_allocate (isSlot : IsSlot slot left) (isHead : head.IsReadFrom right) :
    (Entry.allocate slot head).IsReadFrom (.assign true span left right) := by
  intro source _ ⟨small,declared⟩
  obtain ⟨place,parts,rfl,read⟩ := slot_of_isSlot isSlot small source
  cases isHead with
  | array | object =>
    simp [Source.entry,Source.allocation,Expr.ungrouped,read,Entry.normal,bind,Except.bind,pure, Except.pure]
  | closure _ named is | member _ named is =>
    have target := fun span => target_of_isTarget is (declared _ mem_cons_self) span
    simp [Source.entry,Source.allocation,Expr.ungrouped,read,target,named,Entry.normal,bind,
      Except.bind,pure,Except.pure]

lemma Source.argument_of_isReadFrom {source : Source} (is : body.IsReadFrom value) :
    source.argument value = .ok value := by
  obtain ⟨shape,span,parts,rfl,rfl | rfl⟩ := is.form <;> rfl

lemma isReadFrom_fill {callee : Expr} (isAssign : Source.isAssign callee) (isSlot : IsSlot slot left)
    (isBody : body.IsReadFrom right) :
    (Entry.fill slot body).IsReadFrom (.node .call span [callee,left,right]) := by
  intro source some ⟨small,legible⟩
  obtain ⟨place,parts,rfl,read⟩ := slot_of_isSlot isSlot small source
  have first : source.argument (.node .index place parts) = .ok (.node .index place parts) := rfl
  simp [Source.entry,Source.filling,first,Source.argument_of_isReadFrom isBody,Expr.ungrouped,
    isAssign,read,isBody.reads source some legible,Entry.normal,bind,Except.bind,pure,Except.pure]

lemma isValue_allocate (names : ∀ name ∈ head.loaders, IsPlainName name) :
    IsValue 7 (Entry.allocate slot head).piece := by
  have operand : IsOperand unary 6 ⟨slotLexemes slot,IsSlot slot⟩ := fun d enough =>
    isOperand_unary (isOperand_slot slot) (startsOperand_name (by rfl) _) d (by omega)
  refine IsValue.imp (isValue_assign operand (startsValue_name (by rfl) _) ?_ (isValue_head names)) ?_
  · rintro _ ⟨table,outer,inner,-,rfl⟩
    exact ⟨_,_,rfl⟩
  · rintro _ ⟨span,left,right,isSlot,isHead,rfl⟩
    exact isReadFrom_allocate isSlot isHead

lemma isValue_fill (names : ∀ leaf ∈ body.leaves, ∀ name ∈ leaf.loaders, IsPlainName name) :
    IsValue 21 (Entry.fill slot body).piece := by
  let pieces : List (Parse.Piece Expr) := [⟨slotLexemes slot,IsSlot slot⟩,⟨body.lexemes,body.IsReadFrom⟩]
  have values : ∀ piece ∈ pieces, IsValue 18 piece := by
    intro piece mem
    simp only [pieces,mem_cons,not_mem_nil,or_false] at mem
    rcases mem with rfl | rfl
    · exact (isValue_slot slot).mono (by decide)
    · exact isValue_body names
  have isName : IsPlainName "Object" := by rfl
  have primary : IsPrimary 18 _ := fun d _ => isPrimary_name isName d (Nat.zero_le d)
  have lexemes : (Entry.fill slot body).lexemes = [.word "Object"] ++ .mark "." :: .word "assign" ::
      .mark "(" :: (commas pieces ++ [.mark ")"]) := by
    simp [Entry.lexemes,pieces,commas,followed]
  rw [Entry.piece,lexemes]
  refine isValue_of_leftSide (isOperand_method primary values) (startsOperand_name isName _)
    (startsValue_name isName _) ?_
  rintro _ ⟨_,property,inner,given,span,⟨id,named,rfl⟩,isAssign,all,rfl⟩
  simp only [AllGood,pieces,forall₂_cons_left_iff,forall₂_nil_left_iff] at all
  obtain ⟨left,_,isSlot,⟨right,_,isBody,rfl,rfl⟩,rfl⟩ := all
  exact isReadFrom_fill (by simp [Source.isAssign,named,isAssign]) isSlot isBody

lemma isReadFrom_value (is : leaf.IsReadFrom value) : (Entry.value leaf).IsReadFrom value := by
  intro source some legible
  rw [Source.entry_of_isLeafForm is.form,is.leafOf_eq some legible]
  rfl

lemma isValue_entry (names : ∀ name ∈ entry.loaders, IsPlainName name) : IsValue 21 entry.piece := by
  cases entry with
  | allocate slot head => exact (isValue_allocate names).mono (by decide)
  | fill slot body => exact isValue_fill fun leaf mem name named => names name (mem_flatMap.2 ⟨leaf,mem,named⟩)
  | value leaf => exact (IsValue.imp (isValue_leaf names) fun _ is => isReadFrom_value is).mono (by decide)

/-! ### Statements -/

/-- The first lexeme neither has to stand on the line before, nor starts a statement that is no
expression. -/
def StartsLine (lexemes : List Lexeme) : Prop :=
  ∃ first rest, lexemes = first :: rest ∧ first.sameLine = false ∧ statementWords.any first.is = false

lemma startsLine_number (x : Number) : StartsLine (numberLexemes x) := by
  rw [numberLexemes]
  split_ifs
  · exact ⟨_,_,rfl,rfl,by decide⟩
  · exact ⟨_,_,rfl,rfl,by decide⟩
  · exact ⟨_,_,rfl,rfl,by decide⟩
  · exact ⟨_,_,rfl,rfl,by decide⟩
  · exact ⟨_,_,rfl,rfl,by simp [Lexeme.is,Lexeme.number]⟩

lemma startsLine_leaf (leaf : Leaf) : StartsLine leaf.lexemes := by
  cases leaf with
  | number x => exact startsLine_number x
  | boolean value => cases value <;> exact ⟨_,_,rfl,rfl,by decide⟩
  | string value => exact ⟨_,_,rfl,rfl,by simp [Lexeme.is,Lexeme.string]⟩
  | _ => exact ⟨_,_,rfl,rfl,by decide⟩

lemma startsLine_entry (entry : Entry) : StartsLine entry.lexemes := by
  cases entry with
  | value leaf => exact startsLine_leaf leaf
  | _ => exact ⟨_,_,rfl,rfl,by decide⟩

def Entry.statement (entry : Entry) : Parse.Piece Stmt where
  lexemes := entry.lexemes ++ [.mark ";"]
  good := fun result => ∃ value span, entry.IsReadFrom value ∧ result = .expression value span

lemma isStatement_entry (names : ∀ name ∈ entry.loaders, IsPlainName name) : IsStatement 22 entry.statement := by
  obtain ⟨first,rest,eq,-,none⟩ := startsLine_entry entry
  refine isStatement_expression (isValue_entry names) fun lexeme mem => ?_
  rw [Entry.piece,eq] at mem
  exact Option.some.inj mem ▸ none

def Loader.statement (loader : Loader) : Parse.Piece Stmt where
  lexemes := Grammar.loaderOf loader.name (.word "import") [.mark "(",.string loader.url,.mark ")"]
  good := fun result => ∃ literal id outer inner place, result = .function literal ∧
    literal.head.name = some id ∧ id.name = loader.name ∧
    literal.body = [.returns [.node .load inner [.string loader.url place]] outer]

lemma isStatement_load (isName : IsPlainName loader.name) : IsStatement 22 loader.statement := by
  have load := isPrimary_load (by simp) (isValue_single (isValue_string loader.url))
  have value := isValue_of_primary load ⟨_,_,rfl,by decide⟩ ⟨_,_,rfl,by decide,by decide⟩ fun _ is => is
  refine IsStatement.imp (isStatement_loader isName value rfl (by decide)) ?_ (by decide)
  rintro _ ⟨literal,id,_,outer,rfl,head,named,body,inner,given,all,rfl⟩
  obtain ⟨_,⟨place,rfl⟩,rfl⟩ := allGood_single.1 all
  exact ⟨literal,id,outer,inner,place,rfl,head,named,body⟩

/-! ### Lines -/

structure IsLine (text : List Char) (lexemes : List Lexeme) : Prop where
  starts : ∃ first rest, lexemes = first :: rest ∧ first.sameLine = false
  spells : ∀ rest following, Lexes true rest following → Lexes false (text ++ '\n' :: rest) (lexemes ++ following)

lemma lexes_lines {text : α → List Char} {lexemes : α → List Lexeme} {lines : List α}
    (all : ∀ line ∈ lines, IsLine (text line) (lexemes line))
    (last : ∀ newline, Lexes newline rest following) (newline : Bool) :
    Lexes newline (lines.flatMap (fun line => text line ++ ['\n']) ++ rest) (lines.flatMap lexemes ++ following) := by
  induction lines generalizing newline with
  | nil => exact last newline
  | cons line lines ih =>
    have isLine := all line mem_cons_self
    obtain ⟨first,others,eq,loose⟩ := isLine.starts
    have lexes := isLine.spells _ _ (ih (fun other mem => all other (mem_cons_of_mem _ mem)) true)
    simp only [flatMap_cons,append_assoc,cons_append,nil_append]
    refine lexes.onNewLine fun lexeme mem => ?_
    rw [eq] at mem
    exact Option.some.inj mem ▸ loose

lemma isLine_entry (words : ∀ name ∈ entry.loaders, spellsWord name) :
    IsLine (entry.text.toList ++ [';']) entry.statement.lexemes := by
  constructor
  · obtain ⟨first,rest,eq,loose,-⟩ := startsLine_entry entry
    exact ⟨first,rest ++ [.mark ";"],by rw [Entry.statement,eq]; rfl,loose⟩
  · intro rest following lexes
    have spelled := spells_entry words ';' ('\n' :: rest) (.mark ";" :: following) (by decide)
      (.single (by decide) (.lineBreak lexes))
    simpa [Entry.statement] using spelled

lemma isLine_loader (word : spellsWord loader.name) : IsLine loader.text.toList loader.statement.lexemes := by
  refine ⟨⟨_,_,rfl,rfl⟩,fun rest following lexes => ?_⟩
  have text : loader.text.toList ++ '\n' :: rest = "function".toList ++ ' ' :: (loader.name.toList ++
      '(' :: ')' :: '\x7b' :: ' ' :: ("return".toList ++ ' ' :: ("import".toList ++ '(' ::
        ((jsonQuoted loader.url).toList ++ ')' :: ' ' :: '\x7d' :: '\n' :: rest)))) := by
    have start : "function ".toList = "function".toList ++ [' '] := by decide
    have middle : "()\x7b return import(".toList =
        '(' :: ')' :: '\x7b' :: ' ' :: ("return".toList ++ ' ' :: ("import".toList ++ ['('])) := by
      decide
    have last : ") \x7d".toList = [')',' ','\x7d'] := by decide
    simp only [Loader.text,String.toList_append,start,middle,last,append_assoc, cons_append,nil_append]
  rw [text]
  refine .word (by decide) (endsWord_cons (by decide)) (.blank ?_)
  refine .word word (endsWord_cons (by decide)) ?_
  refine .single (by decide) (.single (by decide) (.single (by decide) (.blank ?_)))
  refine .word (by decide) (endsWord_cons (by decide)) (.blank ?_)
  refine Lexes.wordHere (by decide) (endsWord_cons (by decide)) (.single (by decide) (.string ?_))
  exact .single (by decide) (.blank (.single (by decide) (.lineBreak lexes)))

/-! ### Scripts -/

def Loader.declared (loader : Loader) : String × String := (loader.name, loader.url)

namespace Source

variable {source : Source} {statements : List Stmt} {entries : List Entry}

lemma entry_string (text : String) (span : Span) : source.entry (.string text span) = .ok (.value (.string text)) := rfl

lemma declare_entries (all : entries.Forall₂ (fun entry => entry.statement.good) statements) :
    source.declare statements = .ok source := by
  induction all with
  | nil => rfl
  | cons first _ ih =>
    obtain ⟨value,span,-,rfl⟩ := first
    exact ih

variable {loaders : List Loader} {declarations : List Stmt}

section
variable (all : loaders.Forall₂ (fun loader => loader.statement.good) declarations)
  (others : entries.Forall₂ (fun entry => entry.statement.good) statements)
include all others

lemma declare_append (names : (source.loaders.map (·.1) ++ loaders.map Loader.name).Nodup) :
    source.declare (declarations ++ statements) =
      .ok { source with loaders := source.loaders ++ loaders.map Loader.declared } := by
  induction all generalizing source with
  | nil => simpa using declare_entries others
  | @cons loader _ loaders _ first _ ih =>
    obtain ⟨literal,id,outer,inner,place,rfl,head,named,body⟩ := first
    have new : loader.name ∉ source.loaders.map (·.1) := fun old => (nodup_append.1 names).2.2 _ old _ mem_cons_self rfl
    have read : source.loader literal = .ok loader.declared := by simp [Source.loader,head,body,named,Loader.declared]
    rw [cons_append,declare,read]
    change declare { source with loaders := Keyed.insert loader.name loader.url source.loaders } _ = _
    rw [Keyed.insert_of_not_mem new,ih (by simpa using names)]
    simp [Loader.declared]

lemma entries_append (some : entries ≠ [] → 0 < source.text.length)
    (legible : ∀ entry ∈ entries, entry.Legible source) :
    source.entries (declarations ++ statements) = .ok (entries.map Entry.normal) := by
  induction all with
  | nil =>
    induction others with
    | nil => rfl
    | @cons entry _ entries _ first _ ih =>
      obtain ⟨value,span,is,rfl⟩ := first
      have read := is source (some (by simp)) (legible entry mem_cons_self)
      have rest := ih (fun _ => some (by simp)) fun other mem => legible other (mem_cons_of_mem _ mem)
      simp only [nil_append] at rest ⊢
      simp [Source.entries,read,rest,bind,Except.bind,pure,Except.pure]
  | cons first _ ih =>
    obtain ⟨literal,id,outer,inner,place,rfl,-⟩ := first
    exact ih

end

lemma eq_of_directive? {statement : Stmt} (is : directive? statement = some text) :
    ∃ span outer, statement = .expression (.string text span) outer := by
  unfold directive? at is
  split at is
  · cases is
    exact ⟨_,_,rfl⟩
  · cases is

lemma entries_afterDirectives (read : source.entries statements = .ok entries) :
    ∃ rest, source.entries (afterDirectives statements).2 = .ok rest ∧
      entries = (afterDirectives statements).1.map (fun text => .value (.string text)) ++ rest := by
  induction statements generalizing entries with
  | nil => exact ⟨entries,read,rfl⟩
  | cons statement statements ih =>
    by_cases isDirective : (directive? statement).isSome
    · obtain ⟨text,is⟩ := Option.isSome_iff_exists.1 isDirective
      obtain ⟨span,outer,rfl⟩ := eq_of_directive? is
      cases more : source.entries statements with
      | error fault => simp [Source.entries,entry_string,more,bind,Except.bind] at read
      | ok later =>
        obtain ⟨rest,readRest,eq⟩ := ih more
        simp only [Source.entries,entry_string,more,bind,Except.bind,pure,Except.pure, Except.ok.injEq] at read
        refine ⟨rest,?_,?_⟩
        · simpa [afterDirectives,directive?] using readRest
        · simp [← read,eq,afterDirectives,directive?]
    · refine ⟨entries,?_,?_⟩ <;> simp [afterDirectives,isDirective,read]

lemma declare_afterDirectives : source.declare (afterDirectives statements).2 = source.declare statements := by
  induction statements with
  | nil => rfl
  | cons statement statements ih =>
    by_cases isDirective : (directive? statement).isSome
    · obtain ⟨text,is⟩ := Option.isSome_iff_exists.1 isDirective
      obtain ⟨span,outer,rfl⟩ := eq_of_directive? is
      simpa [afterDirectives,directive?,declare] using ih
    · simp [afterDirectives,isDirective]

end Source

def Written.statements (written : Written) : List (Parse.Piece Stmt) :=
  written.loaders.map Loader.statement ++ written.entries.map Entry.statement

lemma exists_of_allGood_statements (all : AllGood written.statements values) :
    ∃ declarations statements, values = declarations ++ statements ∧
      written.loaders.Forall₂ (fun loader => loader.statement.good) declarations ∧
      written.entries.Forall₂ (fun entry => entry.statement.good) statements := by
  have flipped := List.Forall₂.flip all
  refine ⟨values.take written.loaders.length,values.drop written.loaders.length, (take_append_drop _ _).symm,?_,?_⟩
  · have first := forall₂_take_append _ _ _ flipped
    rw [length_map] at first
    exact forall₂_map_left_iff.1 first.flip
  · have second := forall₂_drop_append _ _ _ flipped
    rw [length_map] at second
    exact forall₂_map_left_iff.1 second.flip

def Written.source (written : Written) : Source :=
  { text := written.text.toList, loaders := written.loaders.map Loader.declared }

lemma exists_of_mem_allGood {pieces : List (Parse.Piece α)} {values : List α} {value : α}
    (all : AllGood pieces values) (mem : value ∈ values) : ∃ piece ∈ pieces, piece.good value := by
  induction all with
  | nil => cases mem
  | cons good _ ih =>
    rcases mem_cons.1 mem with rfl | later
    · exact ⟨_,mem_cons_self,good⟩
    · obtain ⟨piece,listed,good⟩ := ih later
      exact ⟨piece,mem_cons_of_mem _ listed,good⟩

lemma exportFaults_eq_nil (all : AllGood written.statements values) : exportFaults (afterDirectives values).2 = [] := by
  have none (statement : Stmt) (mem : statement ∈ (afterDirectives values).2) :
      statement.exportedNames = [] ∧ statement.defaultExport? = none := by
    obtain ⟨piece,listed,good⟩ := exists_of_mem_allGood all (mem_of_mem_drop mem)
    rcases mem_append.1 listed with loader | entry
    · obtain ⟨loader,-,rfl⟩ := mem_map.1 loader
      obtain ⟨literal,_,_,_,_,rfl,-⟩ := good
      exact ⟨rfl,rfl⟩
    · obtain ⟨entry,-,rfl⟩ := mem_map.1 entry
      obtain ⟨value,span,-,rfl⟩ := good
      exact ⟨rfl,rfl⟩
  have names : (afterDirectives values).2.flatMap Stmt.exportedNames = [] :=
    flatMap_eq_nil_iff.2 fun statement mem => (none statement mem).1
  have defaults : (afterDirectives values).2.filterMap Stmt.defaultExport? = [] :=
    filterMap_eq_nil_iff.2 fun statement mem => (none statement mem).2
  simp [exportFaults,names,defaults,repeatedNames]

lemma Leaf.Legible.declared (legible : leaf.Legible source) :
    ∀ name ∈ leaf.loaders, (get? name source.loaders).isSome := by
  cases leaf with
  | lazy target =>
    intro name named
    rw [Leaf.loaders,mem_singleton] at named
    exact named ▸ legible
  | _ => simp [Leaf.loaders]

lemma Entry.Legible.declared (legible : entry.Legible source) :
    ∀ name ∈ entry.loaders, (get? name source.loaders).isSome := by
  cases entry with
  | allocate slot head => exact legible.2
  | value leaf => exact Leaf.Legible.declared legible
  | fill slot body =>
    intro name named
    obtain ⟨leaf,mem,used⟩ := mem_flatMap.1 named
    exact (legible.2 leaf mem).declared name used

lemma Written.lexes (names : ∀ loader ∈ written.loaders, spellsWord loader.name)
    (used : ∀ entry ∈ written.entries, ∀ name ∈ entry.loaders, spellsWord name) :
    Lexes false written.text.toList (written.statements.flatMap Parse.Piece.lexemes) := by
  have entries := lexes_lines (fun entry mem => isLine_entry (used entry mem)) fun _ => .done
  have lines := lexes_lines (fun loader mem => isLine_loader (names loader mem)) entries false
  have text : written.text.toList = written.loaders.flatMap (fun loader => loader.text.toList ++ ['\n']) ++
        (written.entries.flatMap (fun entry => entry.text.toList ++ [';'] ++ ['\n']) ++ []) := by
    simp [Written.text,String.toList_join,flatMap_map]
  have lexemes : written.statements.flatMap Parse.Piece.lexemes =
      written.loaders.flatMap (fun loader => loader.statement.lexemes) ++
        (written.entries.flatMap (fun entry => entry.statement.lexemes) ++ []) := by
    simp [Written.statements,flatMap_map]
  rw [text,lexemes]
  exact lines

lemma Written.text_length_pos (some : written.entries ≠ []) : 0 < written.text.toList.length := by
  obtain ⟨entry,rest,eq⟩ := exists_cons_of_ne_nil some
  simp only [Written.text,eq,String.toList_append,String.toList_join,flatMap_map, flatMap_cons,length_append]
  have last : 0 < ";\n".toList.length := by decide
  omega

lemma ofText_of_read (read : Script.read plainDialect text.toList = .ok program)
    (declared : ({ text := text.toList } : Source).declare program.body = .ok source)
    (listed : source.entries program.body = .ok entries) :
    ofText text = .ok ⟨source.loaders, program.directives.map (fun text => .value (.string text)) ++ entries⟩ := by
  simp only [plainDialect] at read
  simp only [ofText,read,declared,listed,bind,Except.bind]
  rfl

/-- A payload whose names are words and whose numbers are exact is read back from its text. -/
lemma ofText_text (distinct : (written.loaders.map Loader.name).Nodup)
    (names : ∀ loader ∈ written.loaders, IsPlainName loader.name ∧ spellsWord loader.name)
    (legible : ∀ entry ∈ written.entries, entry.Legible written.source) :
    ofText written.text = .ok ⟨written.loaders.map Loader.declared,written.entries.map Entry.normal⟩ := by
  have used (entry : Entry) (mem : entry ∈ written.entries) (name : String)
      (named : name ∈ entry.loaders) : IsPlainName name ∧ spellsWord name := by
    obtain ⟨url,found⟩ := Option.isSome_iff_exists.1 ((legible entry mem).declared name named)
    obtain ⟨loader,listed,same⟩ := mem_map.1 (mem_of_get? found)
    obtain rfl : loader.name = name := congrArg Prod.fst same
    exact names loader listed
  have lexes := Written.lexes (fun loader mem => (names loader mem).2)
    fun entry mem name named => (used entry mem name named).2
  have statements : ∀ piece ∈ written.statements, IsStatement 22 piece := by
    intro piece listed
    rcases mem_append.1 listed with loads | enters
    · obtain ⟨loader,mem,rfl⟩ := mem_map.1 loads
      exact isStatement_load (names loader mem).1
    · obtain ⟨entry,mem,rfl⟩ := mem_map.1 enters
      exact isStatement_entry fun name named => (used entry mem name named).1
  obtain ⟨program,values,read,all,eq⟩ := read_of_lexes lexes statements (by decide)
    (Lexes.ne_shellLine lexes) fun values all => exportFaults_eq_nil all
  have directives : program.directives = (afterDirectives values).1 := congrArg Prod.fst eq
  have body : program.body = (afterDirectives values).2 := congrArg Prod.snd eq
  obtain ⟨declarations,rest,rfl,loaders,entries⟩ := exists_of_allGood_statements all
  have declared : ({ text := written.text.toList } : Source).declare program.body = .ok written.source := by
    rw [body,Source.declare_afterDirectives]
    exact Source.declare_append loaders entries (by simpa using distinct)
  obtain ⟨later,readLater,split⟩ := Source.entries_afterDirectives
    (Source.entries_append loaders entries Written.text_length_pos legible)
  rw [← body] at readLater
  rw [← directives] at split
  rw [split]
  exact ofText_of_read read declared readLater

end Payload
end Resumable
