import Resumable.Proofs.Numerals
import Resumable.Script.Token
import Resumable.Text.Quoted

/-! A script as the list of its lexemes. `Lexes` relates a text to what the grammar sees of its tokens, so that
statements about the grammar need not look at characters. -/
namespace Resumable.Script
open Text

/-- What the grammar sees of a token. -/
structure Lexeme where
  kind : Kind
  text : String := ""
  value : Number := Number.zero false
  /-- No line break stands in front of it. -/
  sameLine : Bool := false

namespace Lexeme

def word (name : String) : Lexeme := { kind := .word, text := name }
def mark (text : String) : Lexeme := { kind := .mark, text }
def string (text : String) : Lexeme := { kind := .string, text }
def number (value : Number) : Lexeme := { kind := .number, value }

def is (lexeme : Lexeme) (text : String) : Bool := (lexeme.kind == .mark || lexeme.kind == .word) && lexeme.text == text

end Lexeme

structure Token.Shows (token : Token) (lexeme : Lexeme) : Prop where
  kind : token.kind = lexeme.kind
  text : token.text = lexeme.text
  value : token.value = lexeme.value
  plain : token.escaped = false
  sameLine : lexeme.sameLine → token.newline = false

/-- A text starts with a lexeme, without blanks. -/
structure Begins (text : List Char) (lexeme : Lexeme) (rest : List Char) : Prop where
  here : ∀ newline offset, pass false .blanks newline offset text = { rest := text, offset, newline }
  read : ∀ start newline, ∃ span, readHere start newline text =
      { token :=
          { kind := lexeme.kind, span, text := lexeme.text, value := lexeme.value, newline }
        rest }
  shorter : rest.length < text.length

/-- The lexemes of a text; `newline` if a line break stands in front of it. -/
inductive Lexes : Bool → List Char → List Lexeme → Prop where
  | done : Lexes newline [] []
  | blank : Lexes newline rest lexemes → Lexes newline (' ' :: rest) lexemes
  | lineBreak : Lexes true rest lexemes → Lexes newline ('\n' :: rest) lexemes
  | token : Begins text lexeme rest → (lexeme.sameLine → newline = false) →
      Lexes false rest lexemes → Lexes newline text (lexeme :: lexemes)

def readAfter (newline : Bool) (offset : Nat) (text : List Char) : Reading :=
  let passed := pass false .blanks newline offset text
  let reading := readHere passed.offset passed.newline passed.rest
  { reading with faults := passed.fault.toList ++ reading.faults }

variable {newline : Bool} {text rest name : List Char} {c : Char} {size n : Nat} {lexemes : List Lexeme}

lemma Lexes.next (lexes : Lexes newline text (lexeme :: lexemes)) (offset : Nat) :
    let reading := readAfter newline offset text
    reading.faults = [] ∧ reading.token.Shows lexeme ∧ Lexes false reading.rest lexemes := by
  generalize eq : lexeme :: lexemes = all at lexes
  induction lexes generalizing offset with
  | done => contradiction
  | blank _ ih => exact ih _ eq
  | lineBreak _ ih => exact ih _ eq
  | @token _ _ _ newline _ begins same after =>
    obtain ⟨rfl,rfl⟩ := List.cons.inj eq
    obtain ⟨span,read⟩ := begins.read offset newline
    simp only [readAfter,begins.here,read]
    exact ⟨rfl,⟨rfl,rfl,rfl,rfl,same⟩,after⟩

lemma Lexes.atEnd (lexes : Lexes newline text []) (offset : Nat) :
    let reading := readAfter newline offset text
    reading.faults = [] ∧ reading.token.kind = .done := by
  generalize eq : [] = all at lexes
  induction lexes generalizing offset with
  | done => exact ⟨rfl,rfl⟩
  | blank _ ih => exact ih _ eq
  | lineBreak _ ih => exact ih _ eq
  | token => contradiction

lemma Lexes.length_le (lexes : Lexes newline text lexemes) : lexemes.length ≤ text.length := by
  induction lexes with
  | done => rfl
  | blank _ ih | lineBreak _ ih => exact ih.trans (Nat.le_succ _)
  | token begins _ _ ih =>
    have := begins.shorter
    simp only [List.length_cons]
    omega

lemma pass_visible (low : 0x20 < c.toNat) (high : c.toNat < 0x7F) (slash : c ≠ '/') (newline : Bool) (offset : Nat) :
    pass false .blanks newline offset (c :: rest) = { rest := c :: rest, offset, newline } := by
  have differs {d : Char} (unseen : ¬0x20 < d.toNat) : c ≠ d := by rintro rfl; exact unseen low
  have lineBreak : isLineBreak c = false := by
    simp [isLineBreak,differs (d := '\n') (by decide),differs (d := '\r') (by decide)]
    omega
  have blank : isBlank c = false := by
    simp [isBlank,differs (d := ' ') (by decide),differs (d := '\t') (by decide)]
    omega
  simp [pass,Passing.step?,lineBreak,blank,opensLineComment,List.isPrefixOf,slash.symm]

/-! Words. -/

structure IsWord (name : List Char) : Prop where
  nonempty : name ≠ []
  first : ∀ c ∈ name.head?, isAsciiLetter c ∨ c = '_'
  all : ∀ c ∈ name, isIdentifierPart c

def EndsWord (rest : List Char) : Prop := ∀ c ∈ rest.head?, isIdentifierPart c = false ∧ c ≠ '\\'

lemma readWord_append (fuel : Nat) (first : Bool) (enough : name.length < fuel)
    (starts : first → ∀ c ∈ name.head?, isIdentifierStart c)
    (all : ∀ c ∈ name, isIdentifierPart c) (ends : EndsWord rest) (further : first → name ≠ []) :
    readWord fuel first (name ++ rest) = { name, rest, size := byteLength name } := by
  induction name generalizing fuel first with
  | nil =>
    obtain rfl : first = false := by simpa using further
    obtain _ | fuel := fuel
    · omega
    cases rest with
    | nil => rfl
    | cons c rest =>
      obtain ⟨part,slash⟩ := ends c rfl
      simp [readWord,part,slash,byteLength]
  | cons c name ih =>
    obtain _ | fuel := fuel
    · omega
    have allowed : (if first then isIdentifierStart else isIdentifierPart) c := by
      cases first with
      | false => exact all c List.mem_cons_self
      | true => exact starts rfl c rfl
    have slash : c ≠ '\\' := by
      rintro rfl
      exact absurd (all _ List.mem_cons_self) (by decide)
    have after := ih fuel false (by simpa using enough) (by simp)
      (fun d mem => all d (List.mem_cons_of_mem c mem)) (by simp)
    simp [readWord,slash,allowed,after,byteLength,Nat.add_comm]

lemma isAsciiLetter_bounds (letter : isAsciiLetter c) : 0x41 ≤ c.toNat ∧ c.toNat ≤ 0x7A := by
  simp only [isAsciiLetter,Bool.or_eq_true,Bool.and_eq_true,decide_eq_true_eq,Char.le_def,
    UInt32.le_iff_toNat_le] at letter
  change _ ≤ c.val.toNat ∧ c.val.toNat ≤ _
  have bounds : 'a'.val.toNat = 0x61 ∧ 'z'.val.toNat = 0x7A ∧ 'A'.val.toNat = 0x41 ∧ 'Z'.val.toNat = 0x5A := by decide
  omega

lemma begins_word (is : IsWord name) (ends : EndsWord rest) :
    Begins (name ++ rest) (.word (String.ofList name)) rest := by
  obtain ⟨c,tail,rfl⟩ := List.exists_cons_of_ne_nil is.nonempty
  have visible : 0x20 < c.toNat ∧ c.toNat < 0x7F ∧ c ≠ '/' ∧ isIdentifierStart c := by
    rcases is.first c rfl with letter | rfl
    · have bounds := isAsciiLetter_bounds letter
      refine ⟨by omega,by omega,?_,?_⟩
      · rintro rfl; revert letter; decide
      · simp only [isIdentifierStart,letter]
        rw [if_pos (by omega)]; rfl
    · decide
  obtain ⟨low,high,slash,starts⟩ := visible
  constructor
  · exact pass_visible low high slash
  · intro start newline
    have read := readWord_append ((c :: tail ++ rest).length + 1) true
      (by simp only [List.length_append]; omega) (fun _ d mem => by
        obtain rfl := Option.some.inj mem; exact starts) is.all ends (by simp)
    refine ⟨⟨start,start + 0 + byteLength (c :: tail)⟩,?_⟩
    simp only [List.cons_append] at read ⊢
    simp only [readHere,starts,Bool.true_or,if_true,read,wordToken]
    rfl
  · simp

/-! Punctuation and numbers. -/

def markChars : List Char := ['[',']','(',')','\x7b','\x7d',',',';',':','=','-','.']

lemma begins_mark (mem : c ∈ markChars) (number : startsNumber (c :: after) = false)
    (read : readMark? (c :: after) = some mark) (left : (c :: after).drop mark.length = rest)
    (positive : 0 < mark.length) :
    Begins (c :: after) (.mark mark) rest := by
  have visible : ∀ c ∈ markChars, 0x20 < c.toNat ∧ c.toNat < 0x7F ∧ c ≠ '/' ∧
      (Text.isIdentifierStart c || c == '\\') = false ∧ (c == '"' || c == '\'') = false ∧
      (c == '\x60') = false ∧ (c == '#') = false :=
    -- decided along the list, not for all characters
    @of_decide_eq_true _ (List.decidableBAll _ _) (by decide)
  obtain ⟨low,high,slash,word,quote,template,hash⟩ := visible c mem
  constructor
  · exact pass_visible low high slash
  · intro start newline
    refine ⟨⟨start,start + mark.length⟩,?_⟩
    simp only [readHere,word,number,quote,template,hash,read,left,Bool.false_eq_true, if_false]
    rfl
  · rw [← left,List.length_drop]
    simp only [List.length_cons]
    omega

lemma begins_number (first : ∃ c ∈ text.head?, c.isDigit)
    (read : readNumeral text = { value, rest, size }) (shorter : rest.length < text.length) :
    Begins text (.number value) rest := by
  obtain ⟨c,head,digit⟩ := first
  obtain ⟨after,rfl⟩ := List.head?_eq_some_iff.1 head
  have bounds : 0x30 ≤ c.toNat ∧ c.toNat ≤ 0x39 := by simpa [Char.isDigit,UInt32.le_iff_toNat_le] using digit
  have differs {d : Char} (other : ¬d.isDigit) : c ≠ d := by rintro rfl; exact other digit
  have word : (isIdentifierStart c || c == '\\') = false := by
    simp only [isIdentifierStart,if_pos (show c.toNat < 128 by omega),Bool.or_eq_false_iff, beq_eq_false_iff_ne]
    refine ⟨⟨⟨?_,differs (by decide)⟩,differs (by decide)⟩,differs (by decide)⟩
    apply Bool.eq_false_iff.2
    intro letter
    have := isAsciiLetter_bounds letter
    omega
  have number : startsNumber (c :: after) := by
    have point : c ≠ '.' := differs (by decide)
    unfold startsNumber
    split
    · next eq => exact absurd (List.cons.inj eq).1 point
    · next eq => rw [← (List.cons.inj eq).1]; exact digit
    · contradiction
  constructor
  · exact pass_visible (by omega) (by omega) (differs (by decide))
  · intro start newline
    refine ⟨⟨start,start + size⟩,?_⟩
    simp only [readHere,word,number,if_true,read,numberToken]
    rfl
  · exact shorter

/-! Strings. -/

lemma paddedHex_control : ∀ n < 0x20, (paddedHex 4 n).length = 4 ∧ (paddedHex 4 n).all isHexDigit ∧
      (paddedHex 4 n).foldl (fun value c => value * 16 + hexValue c) 0 = n ∧
      (paddedHex 4 n).head? = some '0' := by decide

lemma takeHex_control (rest : List Char) (control : n < 0x20) : takeHex 4 (paddedHex 4 n ++ rest) = some n := by
  obtain ⟨length,all,value,-⟩ := paddedHex_control n control
  simp only [takeHex,List.take_left' length,length,all,value]
  rfl

lemma readEscape_control (rest : List Char) (control : n < 0x20) :
    ∃ size, readEscape false ('u' :: (paddedHex 4 n ++ rest)) = ⟨[n],rest,size,true⟩ := by
  obtain ⟨length,-,-,head⟩ := paddedHex_control n control
  have hex := takeHex_control rest control
  have point : readPoint (paddedHex 4 n ++ rest) = ⟨[n],rest,4,true⟩ := by
    obtain ⟨tail,eq⟩ := List.head?_eq_some_iff.1 head
    have drop : (paddedHex 4 n ++ rest).drop 4 = rest := List.drop_left' length
    rw [eq,List.cons_append] at hex drop ⊢
    simp only [readPoint,hex,drop]
    rfl
  have low : isHighSurrogate n = false := by
    simp only [isHighSurrogate,Bool.and_eq_false_iff,decide_eq_false_iff_not]; omega
  have unicode : readUnicode (paddedHex 4 n ++ rest) = ⟨[n],rest,4,true⟩ := by
    simp only [readUnicode,point]
    split
    · next high more eq _ =>
      obtain rfl := (List.cons.inj eq).1
      rw [low]
    · rfl
  have escape (text : List Char) : readEscape false ('u' :: text) =
      { readUnicode text with size := (readUnicode text).size + 1 } := rfl
  exact ⟨5,by rw [escape,unicode]⟩

def Quote.prepend (quote : Quote) (point size : Nat) : Quote :=
  { quote with
    points := point :: quote.points
    size := quote.size + size
    faults := quote.faults.map (· + size) }

lemma readQuote_escape (fuel : Nat) (escape : readEscape false text = ⟨[point],rest,size,true⟩) :
    readQuote '"' (fuel + 1) ('\\' :: text) = (readQuote '"' fuel rest).prepend point (size + 1) := by
  have unfolded : readQuote '"' (fuel + 1) ('\\' :: text) =
      let escape := readEscape false text
      let quote := readQuote '"' fuel escape.rest
      let faults := quote.faults.map (· + escape.size + 1)
      { quote with
        points := escape.points ++ quote.points
        size := quote.size + escape.size + 1
        faults := if escape.valid then faults else 0 :: faults } := rfl
  rw [unfolded,escape]
  rfl

lemma readQuote_jsonChar (c : Char) (rest : List Char) (fuel : Nat) :
    ∃ size, readQuote '"' (fuel + 1) (jsonChar c ++ rest) = (readQuote '"' fuel rest).prepend c.toNat size := by
  have named {d : Char} {point : Nat} (is : c.toNat = point)
      (escape : ∀ text, ∃ size, readEscape false (d :: text) = ⟨[point],text,size,true⟩) :
      ∃ size, readQuote '"' (fuel + 1) ('\\' :: d :: rest) = (readQuote '"' fuel rest).prepend c.toNat size := by
    obtain ⟨size,eq⟩ := escape rest
    exact ⟨size + 1,by rw [is]; exact readQuote_escape fuel eq⟩
  by_cases plain : c = '"' ∨ c = '\\' ∨ c = '\n' ∨ c = '\r'
  · rcases plain with rfl | rfl | rfl | rfl <;> exact named rfl fun _ => ⟨_,rfl⟩
  simp only [not_or] at plain
  simp only [jsonChar,beq_iff_eq,plain,if_false]
  iterate 3
    split
    · next is => subst is; exact named rfl fun _ => ⟨_,rfl⟩
  split
  · next control =>
    obtain ⟨size,escape⟩ := readEscape_control rest control
    exact ⟨size + 1,readQuote_escape fuel escape⟩
  · exact ⟨c.utf8Size,by simp [readQuote,plain,Quote.prepend]⟩

lemma readQuote_jsonText (text rest : List Char) (fuel : Nat) (enough : text.length < fuel) :
    ∃ size, readQuote '"' fuel (text.flatMap jsonChar ++ '"' :: rest) =
      { points := text.map Char.toNat, rest, size, closed := true } := by
  induction text generalizing fuel with
  | nil =>
    obtain _ | fuel := fuel
    · omega
    exact ⟨1,rfl⟩
  | cons c text ih =>
    obtain _ | fuel := fuel
    · omega
    obtain ⟨size,tail⟩ := ih fuel (by simpa using enough)
    obtain ⟨more,head⟩ := readQuote_jsonChar c (text.flatMap jsonChar ++ '"' :: rest) fuel
    rw [List.flatMap_cons,List.append_assoc,head,tail]
    exact ⟨size + more,rfl⟩

lemma isSurrogate_toNat (c : Char) : isSurrogate c.toNat = false := by
  have valid := c.valid
  simp only [isSurrogate,isHighSurrogate,isLowSurrogate,Bool.or_eq_false_iff,
    Bool.and_eq_false_iff,decide_eq_false_iff_not]
  have : c.toNat = c.val.toNat := rfl
  have : c.val.toNat.isValidChar := valid
  simp only [Nat.isValidChar] at this
  omega

lemma pointsText_map (text : List Char) : pointsText (text.map Char.toNat) = String.ofList text := by
  have lone : (text.map Char.toNat).any isSurrogate = false := by simp [isSurrogate_toNat]
  simp only [pointsText,lone,List.flatMap_map,isSurrogate_toNat,Bool.false_and,Bool.or_self,
    Bool.false_eq_true,if_false,Char.ofNat_toNat]
  rw [List.flatMap_singleton']

lemma length_le_flatMap_jsonChar (text : List Char) : text.length ≤ (text.flatMap jsonChar).length := by
  induction text with
  | nil => rfl
  | cons c text ih =>
    have positive : 1 ≤ (jsonChar c).length := by
      simp only [jsonChar]
      split_ifs <;> simp
    simp only [List.flatMap_cons,List.length_append,List.length_cons]
    omega

lemma begins_string (text rest : List Char) :
    Begins ('"' :: (text.flatMap jsonChar ++ '"' :: rest)) (.string (String.ofList text)) rest := by
  have length := length_le_flatMap_jsonChar text
  constructor
  · exact pass_visible (by decide) (by decide) (by decide)
  · intro start newline
    obtain ⟨size,read⟩ := readQuote_jsonText text rest ((text.flatMap jsonChar ++ '"' :: rest).length + 1)
      (by rw [List.length_append]; omega)
    refine ⟨⟨start,start + 1 + size⟩,?_⟩
    have here (after : List Char) : readHere start newline ('"' :: after) =
        stringToken start newline (readQuote '"' (after.length + 1) after) := rfl
    rw [here,read]
    simp only [stringToken,pointsText_map]
    rfl
  · simp; omega

end Resumable.Script
