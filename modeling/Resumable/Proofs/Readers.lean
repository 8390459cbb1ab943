import Resumable.Proofs.Lexemes
import Resumable.Script.Grammar.Rules

/-! What readers do with a list of lexemes. `Runs` says that a reader which stands in front of some lexemes
finishes, finds no fault, and stands in front of others; such statements compose along the structure of a reader. -/
namespace Resumable.Script
open List

def plainDialect : Dialect := { types := false, elements := false, goal := .module }

structure Context.IsPlain (context : Context) : Prop where
  dialect : context.dialect = plainDialect
  inDecorator : context.inDecorator = false

def Ahead (token : Token) (rest : List Char) : List Lexeme → Prop
  | [] => token.kind = .done
  | lexeme :: lexemes => token.Shows lexeme ∧ Lexes false rest lexemes

structure State.Faces (state : State) (lexemes : List Lexeme) : Prop where
  ahead : Ahead state.token state.rest lexemes
  tokenFaults : state.tokenFaults = []
  faults : state.faults = []
  patternOnly : state.patternOnly = []

lemma State.Faces.length_le {state : State} {lexemes : List Lexeme}
    (faces : state.Faces lexemes) : lexemes.length ≤ state.rest.length + 1 := by
  cases lexemes with
  | nil => simp
  | cons lexeme lexemes => simpa using faces.ahead.2.length_le

lemma Token.Shows.is {token : Token} {lexeme : Lexeme} (shows : token.Shows lexeme)
    (text : String) : token.is text = lexeme.is text := by
  simp [Token.is,Lexeme.is,shows.kind,shows.text,shows.plain]

lemma Token.Shows.isAny {token : Token} {lexeme : Lexeme} (shows : token.Shows lexeme)
    (texts : List String) : token.isAny texts = texts.any lexeme.is := by
  rw [Token.isAny,funext shows.is]

namespace Parse

/-- A reader takes the lexemes of `before` up to `after`. -/
def Runs {α : Type} (reader : Parse α) (context : Context) (before after : List Lexeme) (good : α → Prop) : Prop :=
  ∀ state : State, state.Faces before → ∃ value next,
    reader context state = .done value next ∧ next.Faces after ∧ good value

variable {α β : Type} {context : Context} {lexeme : Lexeme} {before middle after : List Lexeme}
  {text : String} {reader : Parse α} {value : α} {good : α → Prop} {step : α → Parse (Step α β)} {rounds : Nat}

lemma Runs.bind {next : α → Parse β} {better : β → Prop} (first : reader.Runs context before middle good)
    (second : ∀ value, good value → (next value).Runs context middle after better) :
    (reader >>= next).Runs context before after better := by
  intro state faces
  obtain ⟨value,state',run,faces',is⟩ := first state faces
  obtain ⟨result,state'',run',rest⟩ := second value is state' faces'
  refine ⟨result,state'',?_,rest⟩
  simp only [Bind.bind,run]
  exact run'

lemma runs_pure (is : good value) : (pure value : Parse α).Runs context before before good :=
  fun state faces => ⟨value,state,rfl,faces,is⟩

lemma Runs.mono (runs : reader.Runs context before after good)
    (imp : ∀ value, good value → better value) : reader.Runs context before after better := by
  intro state faces
  obtain ⟨value,next,run,faces',is⟩ := runs state faces
  exact ⟨value,next,run,faces',imp value is⟩

/-- A test that fails leads on to the second branch. -/
lemma Runs.falls {test : Parse Bool} {no : Parse α} (tests : test.Runs context before middle (· = outcome))
    (is : outcome = false) (runs : no.Runs context middle after good) :
    (test >>= fun holds => if holds then yes else no).Runs context before after good :=
  tests.bind fun _ same => by rwa [same,is,if_neg (by decide)]

lemma Runs.holds {test : Parse Bool} {yes : Parse α} (tests : test.Runs context before middle (· = outcome))
    (is : outcome = true) (runs : yes.Runs context middle after good) :
    (test >>= fun holds => if holds then yes else no).Runs context before after good :=
  tests.bind fun _ same => by rwa [same,is,if_pos rfl]

lemma runs_discard (runs : reader.Runs context before after good) :
    (discard reader).Runs context before after fun _ => True :=
  runs.bind fun _ _ => fun state faces => ⟨(),state,rfl,faces,trivial⟩

lemma runs_token : token.Runs context (lexeme :: before) (lexeme :: before) (·.Shows lexeme) :=
  fun state faces => ⟨state.token,state,rfl,faces,faces.ahead.1⟩

lemma runs_token_any : token.Runs context before before fun _ => True :=
  fun state faces => ⟨state.token,state,rfl,faces,trivial⟩

lemma runs_token_end : token.Runs context [] [] (·.kind = .done) :=
  fun state faces => ⟨state.token,state,rfl,faces,faces.ahead⟩

lemma runs_context : Parse.context.Runs context before before (· = context) :=
  fun state faces => ⟨context,state,rfl,faces,rfl⟩

lemma runs_dialect : dialect.Runs context before before (· = context.dialect) :=
  fun state faces => ⟨context.dialect,state,rfl,faces,rfl⟩

lemma runs_start : start.Runs context before before fun _ => True :=
  fun state faces => ⟨state.token.span.start,state,rfl,faces,trivial⟩

lemma runs_spanFrom (first : Nat) : (spanFrom first).Runs context before before fun _ => True :=
  fun state faces => ⟨⟨first,state.previousStop⟩,state,rfl,faces,trivial⟩

lemma runs_advance (plain : context.IsPlain) : advance.Runs context (lexeme :: before) before fun _ => True := by
  intro state faces
  have module : (!context.dialect.isModule) = false := by rw [plain.dialect]; rfl
  refine ⟨(),_,rfl,?_,trivial⟩
  simp only [module]
  have lexes := faces.ahead.2
  cases before with
  | nil =>
    obtain ⟨faults,kind⟩ := lexes.atEnd state.token.span.stop
    exact ⟨kind,by simpa [install] using ⟨faults,faces.tokenFaults⟩,faces.faults, faces.patternOnly⟩
  | cons next before =>
    obtain ⟨faults,shows,lexes'⟩ := lexes.next state.token.span.stop
    exact ⟨⟨shows,lexes'⟩,by simpa [install] using ⟨faults,faces.tokenFaults⟩,faces.faults, faces.patternOnly⟩

lemma runs_within (runs : reader.Runs (change context) before after good) :
    (within change reader).Runs context before after good := runs

lemma runs_sees (text : String) : (sees text).Runs context (lexeme :: before) (lexeme :: before) (· = lexeme.is text) :=
  runs_token.bind fun _ shows => runs_pure (shows.is text)

lemma runs_seesAny (texts : List String) :
    (seesAny texts).Runs context (lexeme :: before) (lexeme :: before) (· = texts.any lexeme.is) :=
  runs_token.bind fun _ shows => runs_pure (shows.isAny texts)

lemma runs_seesKind (kind : Kind) : (seesKind kind).Runs context (lexeme :: before) (lexeme :: before)
      (· = (lexeme.kind == kind)) :=
  runs_token.bind fun token shows => runs_pure (by rw [shows.kind])

lemma runs_eat (plain : context.IsPlain) (is : lexeme.is text) :
    (eat text).Runs context (lexeme :: before) before (· = true) := by
  refine runs_token.bind fun token shows => ?_
  rw [shows.is,if_pos is]
  exact (runs_advance plain).bind fun _ _ => runs_pure rfl

lemma runs_eat_other (is : lexeme.is text = false) :
    (eat text).Runs context (lexeme :: before) (lexeme :: before) (· = false) := by
  refine runs_token.bind fun token shows => ?_
  rw [shows.is,is]
  exact runs_pure rfl

lemma runs_require (is : lexeme.is text) :
    (require text).Runs context (lexeme :: before) (lexeme :: before) fun _ => True := by
  refine runs_token.bind fun token shows => ?_
  rw [shows.is,is]
  exact runs_pure trivial

lemma runs_expect (plain : context.IsPlain) (is : lexeme.is text) :
    (expect text).Runs context (lexeme :: before) before fun _ => True :=
  (runs_require is).bind fun _ _ => runs_advance plain

lemma runs_look (reader : Parse Bool) : (look reader).Runs context before before fun _ => True := by
  intro state faces
  rw [look]
  cases reader context state with
  | done answer after => exact ⟨answer,state,rfl,faces,trivial⟩
  | failed fault after => exact ⟨false,state,rfl,faces,trivial⟩

lemma Runs.onSameLine (runs : reader.Runs context (lexeme :: before) after good) :
    reader.Runs context ({ lexeme with sameLine := true } :: before) after good := by
  intro state faces
  obtain ⟨shows,lexes⟩ := faces.ahead
  refine runs state { faces with ahead := ⟨?_,lexes⟩ }
  exact ⟨shows.kind,shows.text,shows.value,shows.plain,fun _ => shows.sameLine rfl⟩

/-! Repeated steps. -/

/-- A repeated step finishes within this number of rounds, or more. -/
def Loops (step : α → Parse (Step α β)) (value : α) (context : Context)
    (before after : List Lexeme) (good : β → Prop) (rounds : Nat) : Prop :=
  ∀ fuel, rounds ≤ fuel → (iterate step fuel value).Runs context before after good

lemma loops_stop {good : β → Prop} (runs : (step value).Runs context before after fun next =>
      ∃ result, next = .stop result ∧ good result) :
    Loops step value context before after good 1 := by
  intro fuel enough
  obtain _ | fuel := fuel
  · omega
  refine runs.bind fun next is => ?_
  obtain ⟨result,rfl,is⟩ := is
  exact runs_pure is

lemma loops_more {good : β → Prop} (middle : List Lexeme) (still : α → Prop)
    (runs : (step value).Runs context before middle fun next => ∃ result, next = .more result ∧ still result)
    (rest : ∀ result, still result → Loops step result context middle after good rounds) :
    Loops step value context before after good (rounds + 1) := by
  intro fuel enough
  obtain _ | fuel := fuel
  · omega
  refine runs.bind fun next is => ?_
  obtain ⟨result,rfl,is⟩ := is
  exact rest result is fuel (by omega)

lemma Loops.mono {good better : β → Prop} (loops : Loops step value context before after good rounds)
    (imp : ∀ value, good value → better value) :
    Loops step value context before after better rounds :=
  fun fuel enough => (loops fuel enough).mono imp

lemma Loops.runs {good : β → Prop} (loops : Loops step value context before after good rounds)
    (enough : rounds ≤ before.length + 7) : (loop step value).Runs context before after good := by
  intro state faces
  have length := faces.length_le
  exact loops (state.rest.length + 8) (by omega) state faces

/-! Lists. -/

structure Piece (α : Type) where
  lexemes : List Lexeme
  good : α → Prop

def closers : List String := [")","]","\x7d"]

def Opens (lexemes : List Lexeme) : Prop :=
  ∃ lexeme rest, lexemes = lexeme :: rest ∧ lexeme.kind ≠ .done ∧ closers.any lexeme.is = false

def endsItem (lexeme : Lexeme) : Bool := lexeme.is "," || closers.any lexeme.is

def Takes (item : Parse α) (context : Context) (piece : Piece α) : Prop :=
  ∀ next after, endsItem next → item.Runs context (piece.lexemes ++ next :: after) (next :: after) piece.good

def followed (pieces : List (Piece α)) : List Lexeme := pieces.flatMap fun piece => .mark "," :: piece.lexemes

lemma followed_cons (piece : Piece α) (pieces : List (Piece α)) :
    followed (piece :: pieces) = .mark "," :: (piece.lexemes ++ followed pieces) := rfl

lemma length_le_followed (pieces : List (Piece α)) : pieces.length ≤ (followed pieces).length := by
  induction pieces with
  | nil => rfl
  | cons piece pieces ih => simp only [followed_cons,length_cons,length_append]; omega

def commas : List (Piece α) → List Lexeme
  | [] => []
  | piece :: pieces => piece.lexemes ++ followed pieces

def AllGood (pieces : List (Piece α)) (values : List α) : Prop :=
  List.Forall₂ (fun piece value => piece.good value) pieces values

lemma Opens.isNot (opens : Opens lexemes) (mem : close ∈ closers) :
    ∃ lexeme rest, lexemes = lexeme :: rest ∧ lexeme.kind ≠ .done ∧ lexeme.is close = false := by
  obtain ⟨lexeme,rest,eq,kind,none⟩ := opens
  exact ⟨lexeme,rest,eq,kind,by simpa using any_eq_false.1 none close mem⟩

section Separated
variable {item : Parse α} {close : String} {stop : Lexeme} {pieces : List (Piece α)}

lemma comma_is (mem : close ∈ closers) : (Lexeme.mark ",").is close = false := by revert mem; revert close; decide

lemma followed_ends (mem : close ∈ closers) (closes : stop.is close) (pieces : List (Piece α)) (after : List Lexeme) :
    ∃ next rest, followed pieces ++ stop :: after = next :: rest ∧ endsItem next := by
  cases pieces with
  | nil =>
    refine ⟨stop,after,rfl,?_⟩
    rw [endsItem,any_eq_true.2 ⟨close,mem,closes⟩,Bool.or_true]
  | cons piece pieces => exact ⟨_,_,rfl,rfl⟩

section
variable (plain : context.IsPlain) (mem : close ∈ closers) (closes : stop.is close)
  (opens : ∀ piece ∈ pieces, Opens piece.lexemes) (takes : ∀ piece ∈ pieces, Takes item context piece)
include plain mem closes opens takes

lemma loops_separated (after : List Lexeme) (found : List α) :
    Loops (separatedStep close "," item) found context (followed pieces ++ stop :: after) (stop :: after)
    (fun result => ∃ values, result = (found.reverse ++ values, none) ∧ AllGood pieces values) (pieces.length + 1) := by
  induction pieces generalizing found with
  | nil =>
    apply loops_stop
    refine runs_token.bind fun token shows => ?_
    rw [shows.is,if_pos closes]
    exact runs_pure ⟨_,rfl,[],by simp,.nil⟩
  | cons piece pieces ih =>
    obtain ⟨next,rest,eq,ends⟩ := followed_ends mem closes pieces after
    obtain ⟨first,others,starts,-,isNot⟩ := (opens piece mem_cons_self).isNot mem
    have item := takes piece mem_cons_self next rest ends
    have text : followed (piece :: pieces) ++ stop :: after = .mark "," :: (first :: others ++ next :: rest) := by
      rw [followed_cons,cons_append,append_assoc,eq,starts]
    refine loops_more (followed pieces ++ stop :: after)
      (fun items => ∃ value, items = value :: found ∧ piece.good value) ?_ ?_
    · rw [text,eq]
      rw [starts] at item
      refine runs_token.bind fun token shows => ?_
      have comma : (Lexeme.mark ",").is "," = true := rfl
      simp only [shows.is,comma_is mem,comma,Bool.false_eq_true,if_false,Bool.not_true]
      refine (runs_advance plain).bind fun _ _ => (runs_sees close).falls isNot ?_
      exact item.bind fun value good => runs_pure ⟨_,rfl,value,rfl,good⟩
    · rintro _ ⟨value,rfl,good⟩
      refine (ih (fun p mem => opens p (mem_cons_of_mem _ mem))
        (fun p mem => takes p (mem_cons_of_mem _ mem)) (value :: found)).mono ?_
      rintro _ ⟨values,rfl,all⟩
      exact ⟨value :: values,by simp,.cons good all⟩

lemma runs_separated : (separated close "," item).Runs context (commas pieces ++ stop :: after) (stop :: after)
    fun result => AllGood pieces result.1 ∧ result.2 = none := by
  cases pieces with
  | nil =>
    refine runs_token.bind fun token shows => ?_
    rw [shows.is,closes,Bool.true_or,if_pos rfl]
    exact runs_pure ⟨.nil,rfl⟩
  | cons piece pieces =>
    obtain ⟨next,rest,eq,ends⟩ := followed_ends mem closes pieces after
    obtain ⟨first,others,starts,kind,isNot⟩ := (opens piece mem_cons_self).isNot mem
    have item := takes piece mem_cons_self next rest ends
    have length := length_le_followed pieces
    have loops (value : α) := (loops_separated plain mem closes (fun p mem => opens p (mem_cons_of_mem _ mem))
      (fun p mem => takes p (mem_cons_of_mem _ mem)) after [value]).runs
      (by simp only [length_append,length_cons]; omega)
    rw [commas,append_assoc,eq]
    rw [starts] at item ⊢
    rw [eq] at loops
    refine runs_token.bind fun token shows => ?_
    have more : (token.kind == .done) = false := by simpa [shows.kind] using kind
    rw [shows.is,isNot,more,Bool.or_self,if_neg (by decide)]
    refine item.bind fun value good => (loops value).mono ?_
    rintro _ ⟨values,rfl,all⟩
    exact ⟨.cons good all,rfl⟩

lemma runs_enclosed {opening : String} {start : Lexeme} (isOpening : start.is opening) :
    (enclosed opening close "," item).Runs context (start :: (commas pieces ++ stop :: after)) after
      (AllGood pieces) := by
  refine (runs_expect plain isOpening).bind fun _ _ => ?_
  refine (runs_separated plain mem closes opens takes).bind fun result good => ?_
  exact (runs_expect plain closes).bind fun _ _ => runs_pure good.1

end

end Separated
end Parse

end Resumable.Script
