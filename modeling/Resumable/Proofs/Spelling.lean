import Resumable.Proofs.Lexemes
import Resumable.Proofs.Recording

/-! The lexemes of a payload. Each text that a payload is put together from is spelled with lexemes
that depend on what it stands for only, as long as a character follows that ends a value. -/
namespace Resumable.Script
open List Text
variable {text : List Char} {name : String}

def closes (c : Char) : Bool := [',',')',']','\x7d',';'].contains c

def Spells (text : List Char) (lexemes : List Lexeme) : Prop :=
  ∀ c rest following, closes c → Lexes false (c :: rest) following →
    Lexes false (text ++ c :: rest) (lexemes ++ following)

variable {newline : Bool} {c : Char} {rest : List Char} {following : List Lexeme}

lemma endsWord_of_closes (end_ : closes c) : EndsWord (c :: rest) := by
  have all : ∀ c ∈ [',',')',']','\x7d',';'], isIdentifierPart c = false ∧ c ≠ '\\' :=
    @of_decide_eq_true _ (decidableBAll _ _) (by decide)
  rintro d mem
  obtain rfl := Option.some.inj mem
  exact all c (contains_iff_mem.1 end_)

lemma endsWord_cons (other : isIdentifierPart c = false ∧ c ≠ '\\') : EndsWord (c :: rest) := by
  rintro d mem
  obtain rfl := Option.some.inj mem
  exact other

lemma endsNumber_of_closes (end_ : closes c) : endsNumber c := by
  have all : ∀ c ∈ [',',')',']','\x7d',';'], endsNumber c := @of_decide_eq_true _ (decidableBAll _ _) (by decide)
  exact all c (contains_iff_mem.1 end_)

lemma Lexes.onNewLine (lexes : Lexes false text following)
    (loose : ∀ lexeme ∈ following.head?, lexeme.sameLine = false) : Lexes newline text following := by
  generalize before : false = given at lexes
  induction lexes with
  | done => exact .done
  | blank _ ih => exact .blank (ih loose before)
  | lineBreak after => exact .lineBreak after
  | token begins _ after => exact .token begins (by simp [loose _ rfl]) after

/-! One lexeme in front of others. -/

def singles : List (Char × String) :=
  [('[', "["),(']', "]"),('(', "("),(')', ")"),('\x7b', "\x7b"),('\x7d', "\x7d"),(',', ","), (';', ";"),(':', ":")]

lemma Lexes.single (single : (c, mark) ∈ singles) (lexes : Lexes false rest following) :
    Lexes newline (c :: rest) (.mark mark :: following) := by
  have begins : Begins (c :: rest) (.mark mark) rest := by
    simp only [singles,mem_cons,Prod.mk.injEq,not_mem_nil,or_false] at single
    rcases single with ⟨rfl,rfl⟩ | ⟨rfl,rfl⟩ | ⟨rfl,rfl⟩ | ⟨rfl,rfl⟩ | ⟨rfl,rfl⟩ | ⟨rfl,rfl⟩ |
      ⟨rfl,rfl⟩ | ⟨rfl,rfl⟩ | ⟨rfl,rfl⟩
    all_goals exact begins_mark (by decide) rfl rfl rfl (by decide)
  exact .token begins (by simp [Lexeme.mark]) lexes

lemma Lexes.mark {d : Char} {mark : String} (mem : c ∈ markChars)
    (number : startsNumber (c :: d :: rest) = false) (read : readMark? (c :: d :: rest) = some mark)
    (length : mark.length = 1) (lexes : Lexes false (d :: rest) following) :
    Lexes newline (c :: d :: rest) (.mark mark :: following) := by
  refine .token (begins_mark mem number read ?_ (by omega)) (by simp [Lexeme.mark]) lexes
  rw [length]
  rfl

lemma Lexes.sign (starts : ∃ c tail, text = c :: tail ∧ c ≠ '-' ∧ c ≠ '=')
    (lexes : Lexes false text following) : Lexes newline ('-' :: text) (.mark "-" :: following) := by
  obtain ⟨c,tail,rfl,minus,equals⟩ := starts
  refine .mark (by decide) rfl ?_ rfl lexes
  simp [readMark?,marks,fitsMark,isPrefixOf,minus.symm,equals.symm]

lemma Lexes.point (starts : ∃ c tail, text = c :: tail ∧ c ≠ '.' ∧ isAsciiDigit c = false)
    (lexes : Lexes false text following) : Lexes newline ('.' :: text) (.mark "." :: following) := by
  obtain ⟨c,tail,rfl,point,digit⟩ := starts
  refine .mark (by decide) (by simpa [startsNumber] using digit) ?_ rfl lexes
  simp [readMark?,marks,fitsMark,isPrefixOf,point.symm]

def spellsWord (name : String) : Bool :=
  (name.toList.head?.any fun c => isAsciiLetter c || c == '_') && name.toList.all isIdentifierPart

lemma isWord_of_spellsWord (is : spellsWord name) : IsWord name.toList := by
  rw [spellsWord,Bool.and_eq_true] at is
  cases eq : name.toList with
  | nil =>
    rw [eq] at is
    exact absurd is.1 (by decide)
  | cons c tail =>
    rw [eq] at is
    refine ⟨by simp,?_,all_eq_true.1 is.2⟩
    rintro d mem
    obtain rfl := Option.some.inj mem
    simpa using is.1

lemma Lexes.word (is : spellsWord name) (ends : EndsWord rest) (lexes : Lexes false rest following) :
    Lexes newline (name.toList ++ rest) (.word name :: following) := by
  have begins := begins_word (isWord_of_spellsWord is) ends
  rw [String.ofList_toList] at begins
  exact .token begins (by simp [Lexeme.word]) lexes

lemma Lexes.string {text : String} (lexes : Lexes false rest following) :
    Lexes newline ((jsonQuoted text).toList ++ rest) (.string text :: following) := by
  have begins := begins_string text.toList rest
  rw [String.ofList_toList] at begins
  have eq : (jsonQuoted text).toList ++ rest = '"' :: (text.toList.flatMap jsonChar ++ '"' :: rest) := by
    rw [jsonQuoted,String.toList_ofList]
    simp
  rw [eq]
  exact .token begins (by simp [Lexeme.string]) lexes

lemma exists_toDigits_eq (n : Nat) : ∃ d tail, Nat.toDigits 10 n = d :: tail ∧ d.isDigit := by
  cases eq : Nat.toDigits 10 n with
  | nil => exact absurd eq (Nat.toDigits_ne_nil)
  | cons d tail => exact ⟨d,tail,rfl,isDigit_of_mem_toDigits (eq ▸ mem_cons_self)⟩

lemma exists_positional_eq (decimal : Number.Decimal) :
    ∃ d tail, Number.positional decimal = d :: tail ∧ d.isDigit := by
  obtain ⟨d,tail,eq,digit⟩ := exists_toDigits_eq decimal.digits
  simp only [Number.positional,eq]
  split_ifs with whole places
  · exact ⟨d,_,rfl,digit⟩
  · obtain ⟨count,same⟩ : ∃ count, ((d :: tail).length + decimal.power).toNat = count + 1 :=
      Nat.exists_eq_add_one.2 (by omega)
    rw [same]
    exact ⟨d,_,rfl,digit⟩
  · exact ⟨'0',_,rfl,by decide⟩

lemma Lexes.numeral (first : ∃ d tail, text = d :: tail ∧ d.isDigit)
    (read : readNumeral (text ++ c :: rest) = { value, rest := c :: rest, size })
    (lexes : Lexes false (c :: rest) following) :
    Lexes newline (text ++ c :: rest) (.number value :: following) := by
  obtain ⟨d,tail,rfl,digit⟩ := first
  exact .token (begins_number ⟨d,rfl,digit⟩ read (by simp)) (by simp [Lexeme.number]) lexes

lemma Lexes.natural (ends : endsNumber c) (lexes : Lexes false (c :: rest) following) :
    Lexes newline ((toString n).toList ++ c :: rest) (.number (.ofDecimal false n 0) :: following) := by
  rw [Nat.toString_eq_repr,Nat.repr_eq_ofList_toDigits,String.toList_ofList]
  exact .numeral (exists_toDigits_eq n) (readNumeral_toDigits n ends) lexes

/-! Values of a payload. -/

lemma spells_word (is : spellsWord name) : Spells name.toList [.word name] :=
  fun _ _ _ ends lexes => .word is (endsWord_of_closes ends) lexes

def joined : List (List Lexeme) → List Lexeme
  | [] => []
  | first :: rest => first ++ rest.flatMap (.mark "," :: ·)

lemma toList_list (text : String) (texts : List String) : (Payload.list (text :: texts)).toList =
      text.toList ++ texts.flatMap fun other => ',' :: ' ' :: other.toList := by
  induction texts generalizing text with
  | nil => simp [Payload.list]
  | cons other texts ih =>
    have more := ih other
    rw [Payload.list] at more ⊢
    rw [String.intercalate_cons_cons,String.toList_append,String.toList_append,more]
    simp

section Lists
variable {α : Type} {texts : α → String} {spelled : α → List Lexeme} {items : List α}

section
variable (each : ∀ item ∈ items, Spells (texts item).toList (spelled item))
include each

lemma lexes_followed (ends : closes c) (lexes : Lexes false (c :: rest) following) :
    ∃ d tail, (items.flatMap fun item => ',' :: ' ' :: (texts item).toList) ++ c :: rest = d :: tail ∧ closes d ∧
      Lexes false (d :: tail) ((items.flatMap fun item => .mark "," :: spelled item) ++ following) := by
  induction items with
  | nil => exact ⟨c,rest,rfl,ends,lexes⟩
  | cons item items ih =>
    obtain ⟨d,tail,eq,closes,more⟩ := ih fun other mem => each other (mem_cons_of_mem _ mem)
    have here := each item mem_cons_self d tail _ closes more
    refine ⟨',',' ' :: ((texts item).toList ++ d :: tail),?_,by decide,?_⟩
    · simp [← eq]
    · simpa using Lexes.single (by decide) (.blank here)

lemma spells_list : Spells (Payload.list (items.map texts)).toList (joined (items.map spelled)) := by
  intro c rest following ends lexes
  cases items with
  | nil => exact lexes
  | cons item items =>
    obtain ⟨d,tail,eq,closes,more⟩ := lexes_followed (fun other mem => each other (mem_cons_of_mem _ mem)) ends lexes
    have here := each item mem_cons_self d tail _ closes more
    rw [map_cons,toList_list,flatMap_map,append_assoc,eq]
    simpa [joined,flatMap_map] using here

end
end Lists

end Resumable.Script

namespace Resumable.Payload
open Script List Text Leaf
variable {newline : Bool} {rest : List Char} {following : List Lexeme}

/-! Values of a payload. -/

def numberLexemes (x : Number) : List Lexeme :=
  if x.isNaN then [.word "NaN"]
  else
    (if x.isNegative then [.mark "-"] else []) ++
      if x.isInfinite then [.word "Infinity"] else [.number (.ofParts false x.magnitude)]

def Target.lexemes (target : Target) : List Lexeme :=
  [.mark "(",.word target.loader,.mark ",",.string target.name,.mark ")"]

def slotLexemes (slot : Nat) : List Lexeme := [.word "refs",.mark "[",.number (.ofDecimal false slot 0),.mark "]"]

def Leaf.lexemes : Leaf → List Lexeme
  | undefined => [.word "undefined"]
  | null => [.word "null"]
  | boolean value => [.word (if value then "true" else "false")]
  | number value => numberLexemes value
  | string value => [.string value]
  | symbol key => [.word "Symbol",.mark ".",.word "for",.mark "(",.string key,.mark ")"]
  | date time => .word "new" :: .word "Date" :: .mark "(" :: (numberLexemes time ++ [.mark ")"])
  | ref slot => slotLexemes slot
  | lazy target => .word "__lazyRef" :: target.lexemes
  | anchor path =>
    .word "__anchor" :: .mark "(" :: .mark "[" ::
      (joined (path.map fun n => [.number (.ofDecimal false n 0)]) ++ [.mark "]",.mark ")"])

lemma spells_number (x : Number) : Spells x.scriptText.toList (numberLexemes x) := by
  intro c rest following ends lexes
  rw [Number.scriptText,numberLexemes]
  split_ifs with isNaN isInfinite isNegative isNegative
  · exact spells_word (by decide) c rest following ends lexes
  · have text : "-Infinity".toList = '-' :: "Infinity".toList := by decide
    rw [text]
    exact .sign ⟨'I',"nfinity".toList ++ c :: rest,by simp,by decide,by decide⟩
      (spells_word (by decide) c rest following ends lexes)
  · exact spells_word (by decide) c rest following ends lexes
  all_goals
    have finite : x.isFinite := by
      simp only [Number.isNaN,Number.isInfinite,Number.isFinite] at *
      grind
    have digits : Lexes false (Number.positional x.shortest ++ c :: rest) (_ :: following) :=
      Lexes.numeral (exists_positional_eq x.shortest) (readNumeral_shortest finite (endsNumber_of_closes ends)) lexes
    rw [String.toList_ofList,Number.sign]
  · obtain ⟨d,tail,eq,digit⟩ := exists_positional_eq x.shortest
    rw [if_pos isNegative]
    refine .sign ⟨d,tail ++ c :: rest,by rw [eq]; rfl,?_,?_⟩ digits
    all_goals rintro rfl; exact absurd digit (by decide)
  · rw [if_neg isNegative]
    exact digits

lemma lexes_slot (slot : Nat) (lexes : Lexes false rest following) :
    Lexes newline ((slotText slot).toList ++ rest) (slotLexemes slot ++ following) := by
  have text : (slotText slot).toList ++ rest = "refs".toList ++ '[' :: ((toString slot).toList ++ ']' :: rest) := by
    simp [slotText]
  rw [text]
  refine .word (by decide) (endsWord_cons (by decide)) (.single (by decide) ?_)
  exact .natural (by decide) (.single (by decide) lexes)

lemma spells_target {target : Target} {word : String} (isWord : spellsWord word) (isLoader : spellsWord target.loader) :
    Spells (word ++ target.text).toList (.word word :: target.lexemes) := by
  intro c rest following _ lexes
  have text : (word ++ target.text).toList ++ c :: rest = word.toList ++ '(' ::
      (target.loader.toList ++ ',' :: ' ' :: ((jsonQuoted target.name).toList ++ ')' :: c :: rest)) := by
    simp [Target.text]
  rw [text]
  refine .word isWord (endsWord_cons (by decide)) (.single (by decide) ?_)
  refine .word isLoader (endsWord_cons (by decide)) (.single (by decide) (.blank ?_))
  exact .string (.single (by decide) lexes)

def Leaf.loaders : Leaf → List String
  | lazy target => [target.loader]
  | _ => []

def Head.loaders : Head → List String
  | closure target | member target => [target.loader]
  | _ => []

def Entry.loaders : Entry → List String
  | allocate _ head => head.loaders
  | fill _ body => body.leaves.flatMap Leaf.loaders
  | value leaf => leaf.loaders

lemma spells_leaf {leaf : Leaf} (words : ∀ name ∈ leaf.loaders, spellsWord name) :
    Spells leaf.text.toList leaf.lexemes := by
  cases leaf with
  | undefined | null => exact spells_word (by decide)
  | boolean value => cases value <;> exact spells_word (by decide)
  | number value => exact spells_number value
  | string value => exact fun _ _ _ _ lexes => .string lexes
  | ref slot => exact fun _ _ _ _ lexes => lexes_slot slot lexes
  | lazy target => exact spells_target (by decide) (words _ mem_cons_self)
  | symbol key =>
    intro c rest following _ lexes
    have text : (symbol key).text.toList ++ c :: rest = "Symbol".toList ++ '.' ::
        ("for".toList ++ '(' :: ((jsonQuoted key).toList ++ ')' :: c :: rest)) := by
      simp [text]
    rw [text]
    refine .word (by decide) (endsWord_cons (by decide)) ?_
    refine .point ⟨'f',"or".toList ++ _,rfl,by decide,by decide⟩ ?_
    refine .word (by decide) (endsWord_cons (by decide)) (.single (by decide) ?_)
    exact .string (.single (by decide) lexes)
  | date time =>
    intro c rest following _ lexes
    have text : (date time).text.toList ++ c :: rest = "new".toList ++ ' ' ::
        ("Date".toList ++ '(' :: (time.scriptText.toList ++ ')' :: c :: rest)) := by
      simp [text]
    rw [text]
    refine .word (by decide) (endsWord_cons (by decide)) (.blank ?_)
    refine .word (by decide) (endsWord_cons (by decide)) (.single (by decide) ?_)
    have number := spells_number time ')' (c :: rest) (.mark ")" :: following) (by decide) (.single (by decide) lexes)
    simpa using number
  | anchor path =>
    intro c rest following _ lexes
    have text : (anchor path).text.toList ++ c :: rest = "__anchor".toList ++ '(' :: '[' ::
        ((list (path.map toString)).toList ++ ']' :: ')' :: c :: rest) := by
      simp [text]
    rw [text]
    refine .word (by decide) (endsWord_cons (by decide)) (.single (by decide) (.single (by decide) ?_))
    have each (n : Nat) (_ : n ∈ path) : Spells (toString n).toList [.number (.ofDecimal false n 0)] :=
      fun c rest following ends lexes => .natural (endsNumber_of_closes ends) lexes
    have items := spells_list each ']' (')' :: c :: rest) (.mark "]" :: .mark ")" :: following)
      (by decide) (.single (by decide) (.single (by decide) lexes))
    simpa using items

/-! What slots are made as and filled with. -/

def Head.lexemes : Head → List Lexeme
  | array => [.mark "[",.mark "]"]
  | object => [.mark "\x7b",.mark "\x7d"]
  | closure target => .word "__closure" :: target.lexemes
  | member target => .word "__instance" :: target.lexemes

def keyLexemes (key : String) : List Lexeme :=
  if key == "__proto__" then [.mark "[",.string key,.mark "]"] else [.string key]

def listLexemes (leaves : List Leaf) : List Lexeme := .mark "[" :: (joined (leaves.map lexemes) ++ [.mark "]"])

def Body.lexemes : Body → List Lexeme
  | elements items => listLexemes items
  | properties fields =>
    .mark "\x7b" :: (joined (fields.map fun field =>
      keyLexemes field.1 ++ .mark ":" :: field.2.lexemes) ++ [.mark "\x7d"])
  | captured items => .mark "\x7b" :: .string "capturedArgs" :: .mark ":" :: (listLexemes items ++ [.mark "\x7d"])

lemma spells_head {head : Head} (words : ∀ name ∈ head.loaders, spellsWord name) :
    Spells head.text.toList head.lexemes := by
  cases head with
  | array | object => exact fun _ _ _ _ lexes => .single (by decide) (.single (by decide) lexes)
  | closure target | member target => exact spells_target (by decide) (words _ mem_cons_self)

lemma spells_field {field : String × Leaf} (words : ∀ name ∈ field.2.loaders, spellsWord name) :
    Spells (keyText field.1 ++ ": " ++ field.2.text).toList (keyLexemes field.1 ++ .mark ":" :: field.2.lexemes) := by
  intro c rest following ends lexes
  have value := spells_leaf words c rest following ends lexes
  rw [keyText,keyLexemes]
  split_ifs
  · have text : ("[" ++ jsonQuoted field.1 ++ "]" ++ ": " ++ field.2.text).toList ++ c :: rest =
        '[' :: ((jsonQuoted field.1).toList ++ ']' :: ':' :: ' ' :: (field.2.text.toList ++ c :: rest)) := by simp
    rw [text]
    refine .single (by decide) (.string (.single (by decide) (.single (by decide) (.blank ?_))))
    simpa using value
  · have text : (jsonQuoted field.1 ++ ": " ++ field.2.text).toList ++ c :: rest =
        (jsonQuoted field.1).toList ++ ':' :: ' ' :: (field.2.text.toList ++ c :: rest) := by simp
    rw [text]
    refine .string (.single (by decide) (.blank ?_))
    simpa using value

lemma spells_leaves {leaves : List Leaf} (words : ∀ leaf ∈ leaves, ∀ name ∈ leaf.loaders, spellsWord name) :
    Spells ("[" ++ list (leaves.map text) ++ "]").toList (listLexemes leaves) := by
  intro c rest following _ lexes
  have items := spells_list (fun leaf mem => spells_leaf (words leaf mem)) ']' (c :: rest)
    (.mark "]" :: following) (by decide) (.single (by decide) lexes)
  have text : ("[" ++ list (leaves.map text) ++ "]").toList ++ c :: rest =
      '[' :: ((list (leaves.map text)).toList ++ ']' :: c :: rest) := by simp
  rw [text]
  exact .single (by decide) (by simpa using items)

lemma spells_properties {fields : List (String × Leaf)}
    (words : ∀ field ∈ fields, ∀ name ∈ field.2.loaders, spellsWord name) :
    Spells (Body.properties fields).text.toList (Body.properties fields).lexemes := by
  intro c rest following _ lexes
  have items := spells_list (fun field mem => spells_field (words field mem)) '\x7d' (c :: rest)
    (.mark "\x7d" :: following) (by decide) (.single (by decide) lexes)
  have text : (Body.properties fields).text.toList ++ c :: rest =
      '\x7b' :: ((list (fields.map fun field => keyText field.1 ++ ": " ++ field.2.text)).toList ++
        '\x7d' :: c :: rest) := by
    change ("\x7b" ++ list (fields.map fun field => keyText field.1 ++ ": " ++ field.2.text) ++
      "\x7d").toList ++ c :: rest = _
    simp only [String.toList_append,append_assoc]
    rfl
  rw [text]
  exact .single (by decide) (by simpa using items)

lemma spells_captured {items : List Leaf} (words : ∀ leaf ∈ items, ∀ name ∈ leaf.loaders, spellsWord name) :
    Spells (Body.captured items).text.toList (Body.captured items).lexemes := by
  intro c rest following _ lexes
  have list := spells_leaves words '\x7d' (c :: rest) (.mark "\x7d" :: following) (by decide)
    (.single (by decide) lexes)
  have text {quoted : List Char} (opening : "\x7b\"capturedArgs\": [".toList = '\x7b' :: (quoted ++ [':',' ','['])) :
      (Body.captured items).text.toList ++ c :: rest = '\x7b' :: (quoted ++ ':' :: ' ' ::
        (("[" ++ Payload.list (items.map text) ++ "]").toList ++ '\x7d' :: c :: rest)) := by
    change ("\x7b\"capturedArgs\": [" ++ Payload.list (items.map text) ++ "]\x7d").toList ++ _ = _
    simp only [String.toList_append,opening,append_assoc,cons_append]
    rfl
  rw [text (show _ = '\x7b' :: ((jsonQuoted "capturedArgs").toList ++ _) by decide)]
  refine .single (by decide) (.string (.single (by decide) (.blank ?_)))
  simpa using list

lemma spells_body {body : Body} (words : ∀ leaf ∈ body.leaves, ∀ name ∈ leaf.loaders, spellsWord name) :
    Spells body.text.toList body.lexemes := by
  cases body with
  | elements items => exact spells_leaves words
  | properties fields => exact spells_properties fun field mem => words field.2 (mem_map_of_mem mem)
  | captured items => exact spells_captured words

def Entry.lexemes : Entry → List Lexeme
  | allocate slot head => slotLexemes slot ++ .mark "=" :: head.lexemes
  | fill slot body =>
    .word "Object" :: .mark "." :: .word "assign" :: .mark "(" ::
      (slotLexemes slot ++ .mark "," :: (body.lexemes ++ [.mark ")"]))
  | value leaf => leaf.lexemes

lemma spells_entry {entry : Entry} (words : ∀ name ∈ entry.loaders, spellsWord name) :
    Spells entry.text.toList entry.lexemes := by
  cases entry with
  | value leaf => exact spells_leaf words
  | allocate slot head =>
    intro c rest following ends lexes
    have text : (Entry.allocate slot head).text.toList ++ c :: rest =
        (slotText slot).toList ++ ' ' :: '=' :: ' ' :: (head.text.toList ++ c :: rest) := by
      change (slotText slot ++ " = " ++ head.text).toList ++ _ = _
      simp only [String.toList_append,append_assoc]
      rfl
    have made := spells_head words c rest following ends lexes
    rw [text]
    simpa [Entry.lexemes] using lexes_slot slot (.blank (.mark (by decide) rfl rfl rfl (.blank made)))
  | fill slot body =>
    intro c rest following _ lexes
    have text : (Entry.fill slot body).text.toList ++ c :: rest = "Object".toList ++ '.' ::
        ("assign".toList ++ '(' :: ((slotText slot).toList ++ ',' :: ' ' ::
          (body.text.toList ++ ')' :: c :: rest))) := by
      change ("Object.assign(" ++ slotText slot ++ ", " ++ body.text ++ ")").toList ++ _ = _
      simp only [String.toList_append,append_assoc]
      rfl
    have filled := spells_body (fun leaf mem name named => words name (mem_flatMap.2 ⟨leaf,mem,named⟩)) ')' (c :: rest)
      (.mark ")" :: following) (by decide) (.single (by decide) lexes)
    rw [text]
    refine .word (by decide) (endsWord_cons (by decide)) ?_
    refine .point ⟨'a',"ssign".toList ++ _,rfl,by decide,by decide⟩ ?_
    refine .word (by decide) (endsWord_cons (by decide)) (.single (by decide) ?_)
    simpa using lexes_slot slot (.single (by decide) (.blank filled))

end Resumable.Payload
