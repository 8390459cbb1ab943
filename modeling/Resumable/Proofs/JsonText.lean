import Resumable.Json.Reading
import Resumable.Proofs.Lexemes

/-! JSON texts. The text of a value is read back as the value, if its numbers are numerals; so the
text tells the value. -/
namespace Resumable.Json
open List
variable {rest whole : List Char} {json : Json} {fuel : Nat} {c : Char} {α : Type}

/-! ### Strings -/

lemma readPoints_jsonChar (c : Char) (rest : List Char) (fuel : Nat) : readPoints (fuel + 1) (Text.jsonChar c ++ rest) =
      (readPoints fuel rest).map fun (points, after) => (c.toNat :: points, after) := by
  by_cases named : c = '"' ∨ c = '\\' ∨ c = '\x08' ∨ c = '\x0c' ∨ c = '\n' ∨ c = '\r' ∨ c = '\t'
  · rcases named with rfl | rfl | rfl | rfl | rfl | rfl | rfl <;> rfl
  simp only [not_or] at named
  simp only [Text.jsonChar,beq_iff_eq,named,if_false]
  split
  · next control =>
    have point (text : List Char) : readPoints (fuel + 1) ('\\' :: 'u' :: text) =
        (Script.takeHex 4 text).bind fun unit =>
          (readPoints fuel (text.drop 4)).map fun (points, after) => (unit :: points, after) :=
      rfl
    have drop : (Text.paddedHex 4 c.toNat ++ rest).drop 4 = rest := drop_left' (Script.paddedHex_control _ control).1
    rw [append_assoc,cons_append,cons_append,nil_append,point, Script.takeHex_control rest control,drop]
    rfl
  · next plain => simp [readPoints,named,plain]

lemma readPoints_jsonText (text rest : List Char) (enough : text.length < fuel) :
    readPoints fuel (text.flatMap Text.jsonChar ++ '"' :: rest) = some (text.map Char.toNat, rest) := by
  induction text generalizing fuel with
  | nil =>
    obtain _ | fuel := fuel
    · omega
    rfl
  | cons c text ih =>
    obtain _ | fuel := fuel
    · omega
    rw [flatMap_cons,append_assoc,readPoints_jsonChar, ih (by simpa using enough)]
    rfl

lemma joinPairs?_map_toNat (text : List Char) : joinPairs? (text.map Char.toNat) = some (text.map Char.toNat) := by
  induction text with
  | nil => rfl
  | cons c text ih =>
    obtain ⟨high,low⟩ := Bool.or_eq_false_iff.1 (Script.isSurrogate_toNat c)
    rw [map_cons,joinPairs?.eq_def]
    simp [low,high,ih]

lemma pointsString?_map_toNat (text : String) : pointsString? (text.toList.map Char.toNat) = some text := by
  rw [pointsString?,joinPairs?_map_toNat,Option.map_some,map_map]
  simp [Function.comp_def]

lemma readPoints_string (text : String) (rest : List Char) :
    readPoints ((text.toList.flatMap Text.jsonChar ++ '"' :: rest).length + 1)
      (text.toList.flatMap Text.jsonChar ++ '"' :: rest) = some (text.toList.map Char.toNat, rest) := by
  apply readPoints_jsonText
  have := Script.length_le_flatMap_jsonChar text.toList
  rw [length_append]
  omega

lemma toList_jsonQuoted_append (text : String) (rest : List Char) : (Text.jsonQuoted text).toList ++ rest =
      '"' :: (text.toList.flatMap Text.jsonChar ++ '"' :: rest) := by
  simp [Text.jsonQuoted]

lemma readKey_jsonQuoted (key : String) (rest : List Char) :
    readKey ((Text.jsonQuoted key).toList ++ ':' :: rest) = some (key, rest) := by
  rw [toList_jsonQuoted_append]
  have start (after : List Char) : skipSpace ('"' :: after) = '"' :: after := rfl
  simp only [readKey,start,readPoints_string]
  simp only [Option.bind_eq_bind,Option.bind_some,pointsString?_map_toNat]
  rfl

/-! ### Values -/

def EndsNumber (rest : List Char) : Prop := ∀ c ∈ rest.head?, ¬c.isDigit ∧ c ≠ '.' ∧ c ≠ 'e' ∧ c ≠ 'E'

def IsNumeral (text : List Char) : Prop := ∀ rest, EndsNumber rest → readNumber (text ++ rest) = some (text, rest)

/-- Values that are read back: numbers are numerals and strings are texts. -/
inductive Legible : Json → Prop where
  | null : Legible null
  | boolean : Legible (boolean value)
  | number : IsNumeral (String.toList written) → Legible (number written)
  | string : Legible (string value)
  | array : (∀ item ∈ items, Legible item) → Legible (array items)
  | object : (∀ field ∈ fields, Legible field.2) → Legible (object fields)

def ReadsBack (json : Json) : Prop :=
  ∀ {fuel rest}, EndsNumber rest → 2 * json.text.toList.length ≤ fuel →
    readValue (fuel + 1) (json.text.toList ++ rest) = some (json, rest)

variable {items : List Json} {fields : List (String × Json)}

lemma readNumber_head {read : List Char × List Char} (number : readNumber (c :: rest) = some read) :
    c = '-' ∨ c.isDigit := by
  by_contra other
  simp only [not_or] at other
  have zero : c ≠ '0' := by rintro rfl; exact other.2 (by decide)
  have whole : readWhole (c :: rest) = none := by simp [readWhole,readDigits,zero,other.2]
  have unsigned : readUnsigned (c :: rest) = none := by simp [readUnsigned,whole]
  simp [readNumber,other.1,unsigned] at number

lemma Legible.head (legible : Legible json) : ∃ c rest, json.text.toList = c :: rest ∧ ¬isSpace c ∧ c ≠ ']' := by
  suffices ∃ c ∈ json.text.toList.head?, ¬isSpace c ∧ c ≠ ']' by
    obtain ⟨c,mem,is⟩ := this
    obtain ⟨rest,eq⟩ := List.head?_eq_some_iff.1 mem
    exact ⟨c,rest,eq,is⟩
  cases legible with
  | null => exact ⟨'n',by simp [Json.text],by decide⟩
  | @boolean value =>
    cases value
    exacts [⟨'f',by simp [Json.text],by decide⟩,⟨'t',by simp [Json.text],by decide⟩]
  | @number written numeral =>
    have read := numeral [] (by simp [EndsNumber])
    rw [append_nil] at read
    rw [Json.text]
    cases eq : written.toList with
    | nil => rw [eq] at read; contradiction
    | cons c rest =>
      refine ⟨c,rfl,?_,?_⟩
      all_goals
        rw [eq] at read
        rcases readNumber_head read with rfl | digit
      · decide
      · intro space
        simp only [isSpace,Bool.or_eq_true,beq_iff_eq] at space
        rcases space with ((rfl | rfl) | rfl) | rfl <;> contradiction
      · decide
      · rintro rfl; contradiction
  | string => exact ⟨'"',by simp [Json.text,Text.jsonQuoted],by decide⟩
  | array => exact ⟨'[',by simp [Json.text],by decide⟩
  | object => exact ⟨'\x7b',by simp [Json.text],by decide⟩

lemma skipSpace_cons (visible : ¬isSpace c) (rest : List Char) : skipSpace (c :: rest) = c :: rest := by
  rw [skipSpace,dropWhile_cons_of_neg visible]

lemma readsBack_number (numeral : IsNumeral written.toList) : ReadsBack (number written) := by
  intro fuel rest ends enough
  have read := numeral rest ends
  obtain ⟨c,more,eq,visible,-⟩ := (Legible.number numeral).head
  rw [Json.text] at eq ⊢
  rw [eq,cons_append] at read ⊢
  have kind := readNumber_head read
  have other {d : Char} (no : d ≠ '-' ∧ ¬d.isDigit) : c ≠ d := by
    rintro rfl
    exact kind.elim no.1 no.2
  unfold readValue
  rw [skipSpace_cons visible]
  simp [read,← eq,other (d := '"') (by decide),other (d := '[') (by decide),
    other (d := '\x7b') (by decide),other (d := 'n') (by decide),other (d := 't') (by decide),
    other (d := 'f') (by decide)]

lemma readsBack_string (value : String) : ReadsBack (string value) := by
  intro fuel rest ends enough
  have quote (after : List Char) : readValue (fuel + 1) ('"' :: after) =
      (readPoints (after.length + 1) after).map fun (points, after) =>
        (((pointsString? points).map string).getD broken, after) := rfl
  rw [Json.text,toList_jsonQuoted_append,quote,readPoints_string]
  simp only [Option.map_some,pointsString?_map_toNat,Option.getD_some]

lemma endsNumber_cons (ends : ¬c.isDigit ∧ c ≠ '.' ∧ c ≠ 'e' ∧ c ≠ 'E') (rest : List Char) :
    EndsNumber (c :: rest) := by
  intro d mem
  obtain rfl : c = d := by simpa using mem
  exact ends

lemma toList_itemsText_cons (item next : Json) (items : List Json) : (itemsText (item :: next :: items)).toList =
      item.text.toList ++ ',' :: (itemsText (next :: items)).toList := by
  simp [itemsText]

lemma toList_fieldsText_one (field : String × Json) : (fieldsText [field]).toList =
      (Text.jsonQuoted field.1).toList ++ ':' :: field.2.text.toList := by
  simp [fieldsText]

lemma toList_fieldsText_cons (field next : String × Json) (fields : List (String × Json)) :
    (fieldsText (field :: next :: fields)).toList = (Text.jsonQuoted field.1).toList ++ ':' ::
        (field.2.text.toList ++ ',' :: (fieldsText (next :: fields)).toList) := by
  simp [fieldsText]

lemma readItems_text (some : items ≠ []) (each : ∀ item ∈ items, ReadsBack item)
    (enough : 2 * (itemsText items).toList.length ≤ fuel) :
    readItems (fuel + 2) ((itemsText items).toList ++ ']' :: rest) = .some (items, rest) := by
  induction items generalizing fuel with
  | nil => exact absurd rfl some
  | cons item items ih =>
    have first := @each item mem_cons_self
    rw [readItems]
    cases items with
    | nil =>
      rw [itemsText] at enough ⊢
      rw [first (endsNumber_cons (by decide) _) (by omega)]
      rfl
    | cons next items =>
      rw [toList_itemsText_cons] at enough ⊢
      simp only [length_append,length_cons] at enough
      obtain _ | fuel := fuel
      · omega
      have others := @ih fuel (by simp) (fun other mem => each other (mem_cons_of_mem _ mem)) (by omega)
      rw [append_assoc,cons_append,first (endsNumber_cons (by decide) _) (by omega), Option.bind_some]
      change (readItems (fuel + 2) _).map _ = _
      rw [others]
      rfl

lemma readFields_text (some : fields ≠ []) (each : ∀ field ∈ fields, ReadsBack field.2)
    (enough : 2 * (fieldsText fields).toList.length ≤ fuel) :
    readFields (fuel + 2) ((fieldsText fields).toList ++ '\x7d' :: rest) = .some (fields, rest) := by
  induction fields generalizing fuel with
  | nil => exact absurd rfl some
  | cons field fields ih =>
    have first := @each field mem_cons_self
    rw [readFields]
    cases fields with
    | nil =>
      rw [toList_fieldsText_one] at enough ⊢
      simp only [length_append,length_cons] at enough
      have value := @first fuel _ (endsNumber_cons (c := '\x7d') (by decide) rest) (by omega)
      simp only [append_assoc,cons_append,readKey_jsonQuoted,Option.bind_some,value]
      rfl
    | cons next fields =>
      rw [toList_fieldsText_cons] at enough ⊢
      simp only [length_append,length_cons] at enough
      obtain _ | fuel := fuel
      · omega
      have others := @ih fuel (by simp) (fun other mem => each other (mem_cons_of_mem _ mem)) (by omega)
      have value := @first (fuel + 1) _ (endsNumber_cons (c := ',') (by decide)
        ((fieldsText (next :: fields)).toList ++ '\x7d' :: rest)) (by omega)
      simp only [append_assoc,cons_append,readKey_jsonQuoted,Option.bind_some,value]
      change (readFields (fuel + 2) _).map _ = _
      rw [others]
      rfl

lemma readsBack_array (legible : ∀ item ∈ items, Legible item) (each : ∀ item ∈ items, ReadsBack item) :
    ReadsBack (array items) := by
  intro fuel rest ends enough
  have eq : (array items).text.toList = '[' :: ((itemsText items).toList ++ [']']) := by simp [Json.text]
  rw [eq] at enough ⊢
  rw [cons_append,append_assoc,singleton_append]
  simp only [length_cons,length_append] at enough
  obtain ⟨fuel,rfl⟩ := Nat.exists_eq_add_of_le' (show 2 ≤ fuel by omega)
  cases items with
  | nil => simp [itemsText]; rfl
  | cons item items =>
    obtain ⟨c,more,head,visible,other⟩ : ∃ c more,
        (itemsText (item :: items)).toList = c :: more ∧ ¬isSpace c ∧ c ≠ ']' := by
      obtain ⟨c,more,head,is⟩ := (legible item mem_cons_self).head
      cases items with
      | nil => exact ⟨c,more,by rw [itemsText,head],is⟩
      | cons next items => exact ⟨c,_,by rw [toList_itemsText_cons,head]; rfl,is⟩
    have inside (text : List Char) : readValue (fuel + 3) ('[' :: c :: text) =
        (readItems (fuel + 2) (c :: text)).map (Prod.map array id) := by
      have opened : skipSpace ('[' :: c :: text) = '[' :: c :: text := rfl
      simp only [readValue,opened,skipSpace_cons visible]
      split
      · next eq => exact absurd (List.cons.inj eq).1 other
      · rfl
    have items := @readItems_text rest fuel _ (by simp) each (by omega)
    rw [head,cons_append] at items ⊢
    rw [inside,items]
    rfl

lemma readsBack_object (each : ∀ field ∈ fields, ReadsBack field.2) : ReadsBack (object fields) := by
  intro fuel rest ends enough
  have eq : (object fields).text.toList = '\x7b' :: ((fieldsText fields).toList ++ ['\x7d']) := by simp [Json.text]
  rw [eq] at enough ⊢
  rw [cons_append,append_assoc,singleton_append]
  simp only [length_cons,length_append] at enough
  obtain ⟨fuel,rfl⟩ := Nat.exists_eq_add_of_le' (show 2 ≤ fuel by omega)
  cases fields with
  | nil => simp [fieldsText]; rfl
  | cons field fields =>
    obtain ⟨more,head⟩ : ∃ more, (fieldsText (field :: fields)).toList = '"' :: more := by
      cases fields with
      | nil => exact ⟨_,by rw [toList_fieldsText_one,toList_jsonQuoted_append]⟩
      | cons next fields => exact ⟨_,by rw [toList_fieldsText_cons,toList_jsonQuoted_append]⟩
    have inside (text : List Char) : readValue (fuel + 3) ('\x7b' :: '"' :: text) =
        (readFields (fuel + 2) ('"' :: text)).map (Prod.map object id) := rfl
    have fields := @readFields_text rest fuel _ (by simp) each (by omega)
    rw [head,cons_append] at fields ⊢
    rw [inside,fields]
    rfl

lemma Legible.readsBack (legible : Legible json) : ReadsBack json := by
  induction legible with
  | null =>
    intro fuel rest ends enough
    rfl
  | @boolean value =>
    intro fuel rest ends enough
    cases value <;> rfl
  | number numeral => exact readsBack_number numeral
  | string => exact readsBack_string _
  | array legible ih => exact readsBack_array legible ih
  | object _ ih => exact readsBack_object ih

lemma Legible.read?_text (legible : Legible json) : read? json.text = some json := by
  have read := @Legible.readsBack json legible (2 * json.text.length + 1) []
    (by simp [EndsNumber]) (by rw [String.length_toList]; omega)
  rw [append_nil] at read
  rw [read?,read]
  rfl

lemma Legible.text_injective (legible : Legible json) (also : Legible other)
    (equal : json.text = other.text) : json = other := by
  have read := legible.read?_text
  rw [equal,also.read?_text] at read
  exact (Option.some.inj read).symm

/-! ### Numbers -/

lemma readDigits_append {digits : List Char} (all : ∀ c ∈ digits, c.isDigit) (nonempty : digits ≠ [])
    (stops : ∀ c ∈ rest.head?, ¬c.isDigit) : readDigits (digits ++ rest) = some (digits, rest) := by
  have taken : (digits ++ rest).takeWhile Char.isDigit = digits := by
    rw [takeWhile_append_of_pos all]
    cases rest with
    | nil => simp
    | cons mark rest => simp [takeWhile_cons_of_neg (stops mark rfl)]
  obtain ⟨c,tail,rfl⟩ := exists_cons_of_ne_nil nonempty
  rw [readDigits,taken]
  simp

lemma readWhole_append (is : Script.IsWhole whole) (stops : ∀ c ∈ rest.head?, ¬c.isDigit) :
    readWhole (whole ++ rest) = some (whole, rest) := by
  have read := readDigits_append is.all is.nonempty stops
  obtain ⟨c,tail,rfl⟩ := exists_cons_of_ne_nil is.nonempty
  rcases is.lead with zero | lead
  · obtain ⟨rfl,rfl⟩ := List.cons.inj zero
    cases rest with
    | nil => rfl
    | cons mark rest => simp [readWhole,stops mark rfl]
  · rw [cons_append] at read ⊢
    unfold readWhole
    split
    · next eq => exact absurd (List.cons.inj eq).1 (by simpa using lead)
    · exact read

section

open Script Figure
variable {figure : Figure}

lemma readPlaces_append (proper : figure.Proper) (stops : ∀ c ∈ rest.head?, ¬c.isDigit ∧ c ≠ '.') :
    readPlaces (figure.fraction ++ rest) = some (figure.fraction, rest) := by
  unfold fraction
  split
  · unfold readPlaces
    split
    · next eq => exact absurd rfl (stops '.' (by rw [← nil_append rest,eq]; rfl)).2
    · rfl
  · next some =>
    rw [cons_append,readPlaces,readDigits_append proper.places some fun c mem => (stops c mem).1]
    rfl

lemma readPower_append (figure : Figure) (ends : EndsNumber rest) :
    readPower (figure.scale ++ rest) = some (figure.scale, rest) := by
  unfold scale
  split
  · next power is =>
    have read := readDigits_append (fun c => Script.isDigit_of_mem_toDigits (n := power.natAbs))
      (Script.isWhole_toDigits _).nonempty fun c mem => (ends c mem).1
    split <;> simp [readPower,read]
  · cases rest with
    | nil => rfl
    | cons mark rest =>
      obtain ⟨-,-,small,large⟩ := ends mark rfl
      simp [readPower,small,large]

lemma scale_stops (figure : Figure) (ends : EndsNumber rest) :
    ∀ c ∈ (figure.scale ++ rest).head?, ¬c.isDigit ∧ c ≠ '.' := by
  unfold scale
  split
  · rintro c ⟨⟩
    decide
  · exact fun c mem => ⟨(ends c mem).1,(ends c mem).2.1⟩

lemma fraction_stops (figure : Figure) (stops : ∀ c ∈ rest.head?, ¬c.isDigit) :
    ∀ c ∈ (figure.fraction ++ rest).head?, ¬c.isDigit := by
  unfold fraction
  split
  · exact stops
  · rintro c ⟨⟩
    decide

section
variable (proper : figure.Proper)
include proper

lemma readUnsigned_append (ends : EndsNumber rest) : readUnsigned (figure.text ++ rest) = some (figure.text, rest) := by
  have stops := scale_stops figure ends
  have whole := readWhole_append proper.whole (fraction_stops figure fun c mem => (stops c mem).1)
  simp only [readUnsigned,Figure.text,append_assoc,whole,Option.bind_eq_bind,Option.bind_some,
    readPlaces_append proper stops,
    readPower_append figure ends]
  rfl

lemma figure_cons : ∃ c rest, figure.text = c :: rest ∧ c.isDigit := by
  obtain ⟨c,tail,eq⟩ := exists_cons_of_ne_nil proper.whole.nonempty
  exact ⟨c,_,by rw [Figure.text,eq]; rfl,proper.whole.all c (by rw [eq]; exact mem_cons_self)⟩

lemma isNumeral_figure (negative : Bool) : IsNumeral ((if negative then ['-'] else []) ++ figure.text) := by
  intro rest ends
  have unsigned := readUnsigned_append proper ends
  cases negative with
  | true => simp [readNumber,unsigned]
  | false =>
    obtain ⟨c,tail,eq,digit⟩ := figure_cons proper
    rw [if_neg Bool.false_ne_true,nil_append]
    rw [eq,cons_append] at unsigned ⊢
    unfold readNumber
    split
    · next eq =>
      obtain rfl := (List.cons.inj eq).1
      contradiction
    · exact unsigned

end

end

lemma legible_ofNat (n : Nat) : Legible (ofNat n) := by
  refine .number ?_
  rw [Nat.toString_eq_repr,Nat.toList_repr]
  have proper : Script.Figure.Proper ⟨Nat.toDigits 10 n,[],none⟩ := ⟨Script.isWhole_toDigits n,nofun⟩
  simpa [Script.Figure.text,Script.Figure.fraction,Script.Figure.scale] using isNumeral_figure proper false

lemma legible_ofOption (legible : ∀ value, Legible (write value)) (value : Option α) :
    Legible (ofOption write value) := by
  cases value with
  | none => exact .null
  | some value => exact legible value

lemma legible_strings (texts : List String) : Legible (strings texts) := .array (forall_mem_map.2 fun _ _ => .string)

/-! ### Records -/

def Restores {α : Type} (write : α → Json) (read : Json → Option α) : Prop :=
  ∀ {value got}, read (write value) = some got → got = value

lemma restores_string : Restores string string? := by
  intro value got read
  exact (Option.some.inj read).symm

lemma restores_boolean : Restores boolean boolean? := by
  intro value got read
  exact (Option.some.inj read).symm

lemma restores_ofNat (bound : Nat) : Restores ofNat (natBelow? bound) := by
  intro n got read
  simp only [ofNat,natBelow?,Nat.toString_eq_repr,Nat.toList_repr] at read
  split at read
  · split at read
    · rw [← Option.some.inj read]
      simp only [mul_comm _ 10]
      exact Nat.ofDigitChars_ten_toDigits
    · contradiction
  · contradiction

lemma restores_ofOption_string : Restores (ofOption string) (nullable? string?) := by
  intro value got read
  cases value <;> exact (Option.some.inj read).symm

lemma restores_array {write : α → Json} {read : Json → Option α} (restores : Restores write read) :
    Restores (fun values : List α => array (values.map write))
      (fun json => json.array?.bind fun items => items.mapM read) := by
  intro values got read
  change (values.map write).mapM _ = some got at read
  induction values generalizing got with
  | nil => exact (Option.some.inj read).symm
  | cons value values ih =>
    simp only [map_cons,mapM_cons,Option.bind_eq_bind,Option.bind_eq_some_iff] at read
    obtain ⟨first,isFirst,others,areOthers,eq⟩ := read
    rw [← Option.some.inj eq,restores isFirst,ih areOthers]

end Resumable.Json
