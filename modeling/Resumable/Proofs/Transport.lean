import Resumable.Payload.Transport
import Resumable.Payload.Reading
import Resumable.Proofs.JsonText

/-! Payloads through JSON. The text of a payload tells its loaders and entries in order, with every string, key and
finite number. Which of the numbers that JSON cannot hold stands at a place is lost. -/
namespace Resumable
open List

/-! ### Numbers -/

namespace Number
open Script Json
variable {x y : Number} {figure other : Figure}

lemma figure_inj (proper : figure.Proper) (proper' : other.Proper) (same : figure.text = other.text) :
    figure = other := by
  have ends : EndsNumber [] := by simp [EndsNumber]
  have read {figure : Figure} (proper : figure.Proper) :
      (readWhole figure.text).bind (fun read => (readPlaces read.2).map fun rest => (read.1, rest)) =
        some (figure.whole, figure.fraction, figure.scale) := by
    have stops := scale_stops figure ends
    have whole := readWhole_append proper.whole (fraction_stops figure fun c mem => (stops c mem).1)
    have places := readPlaces_append proper stops
    rw [append_nil] at whole places
    simp [Figure.text,whole,places]
  have both := read proper
  rw [same,read proper'] at both
  obtain ⟨whole,fraction,scale⟩ : other.whole = figure.whole ∧ other.fraction = figure.fraction ∧
      other.scale = figure.scale := by simpa using both
  have places : other.places = figure.places := by
    simp only [Figure.fraction] at fraction
    split at fraction <;> split at fraction <;> simp_all
  have power : other.power = figure.power := by
    cases one : other.power with
    | none => cases two : figure.power <;> simp_all [Figure.scale]
    | some p =>
      cases two : figure.power with
      | none => simp_all [Figure.scale]
      | some q =>
        simp only [Figure.scale,one,two,cons.injEq,true_and] at scale
        have size := congrArg (digitsValue 10) scale.2
        rw [digitsValue_toDigits,digitsValue_toDigits] at size
        have sign := scale.1
        split at sign <;> split at sign <;> first | exact congrArg some (by omega) | simp at sign
  cases figure
  cases other
  simp_all

/-- A finite number is written with its sign and a figure of the value of its shortest decimal. -/
lemma jsonText_eq (finite : x.isFinite) : ∃ figure : Figure, figure.Proper ∧
    x.jsonText = String.ofList (x.sign ++ figure.text) ∧
    figure.number * 10 ^ figure.exponent = x.shortest.value := by
  obtain ⟨figure,proper,flat,text,value,whole⟩ := positional_eq (shortest_plain x)
  simp only [jsonText,finite,Bool.not_true,Bool.false_eq_true,if_false]
  generalize x.shortest = decimal at *
  split
  · next zero =>
    refine ⟨⟨['0'],['0'],none⟩,⟨⟨by simp,by simp,.inl rfl⟩,by simp⟩,rfl,?_⟩
    simp [Figure.number,digitsValue,Text.hexValue,Decimal.value,zero]
  · next some =>
    split
    · split
      · next large =>
        have none := whole.2 large
        have zero : digitsValue 10 (figure.whole ++ ['0']) = digitsValue 10 figure.whole * 10 ^ 1 :=
          digitsValue_append_zeros figure.whole 1
        refine ⟨⟨figure.whole,['0'],.none⟩,⟨proper.whole,by simp⟩,?_,?_⟩
        · rw [← text]
          simp [Figure.text,Figure.fraction,Figure.scale,none,flat]
        · rw [← value]
          simp [Figure.number,Figure.exponent,zero,none,flat]
      · next small =>
        exact ⟨figure,proper,by rw [text,append_nil],value⟩
    · have isWhole := isWhole_toDigits decimal.digits
      have lead := head?_toDigits some
      have number := digitsValue_toDigits decimal.digits
      obtain ⟨c,tail,eq⟩ := exists_cons_of_ne_nil isWhole.nonempty
      rw [eq] at isWhole lead number ⊢
      obtain ⟨digit,digits⟩ := forall_mem_cons.1 isWhole.all
      refine ⟨⟨[c],tail,.some ((c :: tail).length - 1 + decimal.power)⟩,
        ⟨⟨by simpa using digit,by simp,.inr lead⟩,digits⟩,?_,?_⟩
      · cases tail <;> simp [scientific,Figure.text,Figure.fraction,Figure.scale]
      · simp [Figure.number,Figure.exponent,number,Decimal.value]

lemma jsonText_injective (finite : x.isFinite) (also : y.isFinite) (same : x.jsonText = y.jsonText) : x = y := by
  obtain ⟨figure,proper,text,value⟩ := jsonText_eq finite
  obtain ⟨figure',proper',text',value'⟩ := jsonText_eq also
  rw [text,text',String.ofList_inj] at same
  obtain ⟨sign,written⟩ : x.isNegative = y.isNegative ∧ figure.text = figure'.text := by
    obtain ⟨c,rest,eq,digit⟩ := figure_cons proper
    obtain ⟨d,others,eq',digit'⟩ := figure_cons proper'
    simp only [sign,eq,eq'] at same ⊢
    generalize x.isNegative = one at same ⊢
    generalize y.isNegative = two at same ⊢
    cases one <;> cases two
    · exact ⟨rfl,same⟩
    · obtain ⟨rfl,-⟩ := cons.inj same
      contradiction
    · obtain ⟨rfl,-⟩ := cons.inj same
      contradiction
    · exact ⟨rfl,(cons.inj same).2⟩
  have magnitude : x.magnitude = y.magnitude := by
    obtain rfl := figure_inj proper proper' written
    have read := (ofDecimal_shortest finite value).symm.trans (ofDecimal_shortest also value')
    have bound (x : Number) : x.magnitude < 2 ^ 63 := Nat.mod_lt _ (by decide)
    rw [← magnitude_ofParts false (bound x),read,magnitude_ofParts false (bound y)]
  rw [← ofParts_magnitude x,← ofParts_magnitude y,sign,magnitude]

/-- A number that JSON can hold, or one for all others. -/
def held (x : Number) : Number := if x.isFinite then x else nan

end Number

/-! ### Payloads -/

namespace Payload
open Json

def Leaf.held : Leaf → Leaf
  | number value => number value.held
  | date time => date time.held
  | leaf => leaf

def Body.held : Body → Body
  | elements items => elements (items.map Leaf.held)
  | properties fields => properties (fields.map fun (key, leaf) => (key, leaf.held))
  | captured items => captured (items.map Leaf.held)

def Entry.held : Entry → Entry
  | allocate slot head => allocate slot head
  | fill slot body => fill slot body.held
  | value leaf => value leaf.held

/-- A payload in which what JSON cannot hold is not told apart. -/
def Parsed.held (parsed : Parsed) : Parsed := { parsed with entries := parsed.entries.map Entry.held }

lemma legible_tagged (tag : String) (legible : Legible content) : Legible (tagged tag content) :=
  .object (forall_mem_singleton.2 legible)

lemma legible_numberJson (x : Number) : Legible (numberJson x) := by
  unfold numberJson
  split
  · next finite =>
    obtain ⟨figure,proper,text,-⟩ := Number.jsonText_eq finite
    refine .number ?_
    rw [text,String.toList_ofList]
    exact isNumeral_figure proper _
  · exact .null

lemma legible_record (key other : String) (one : Legible content) (two : Legible more) :
    Legible (.object [(key, content),(other, more)]) :=
  .object (forall_mem_cons.2 ⟨one,forall_mem_singleton.2 two⟩)

lemma Target.legible (target : Target) : Legible target.toJson := legible_record _ _ .string .string

lemma Leaf.legible (leaf : Leaf) : Json.Legible leaf.toJson := by
  cases leaf with
  | undefined | null => exact .string
  | boolean => exact legible_tagged _ .boolean
  | string | symbol => exact legible_tagged _ .string
  | number value | date value => exact legible_tagged _ (legible_numberJson value)
  | ref slot => exact legible_tagged _ (legible_ofNat slot)
  | lazy target => exact legible_tagged _ target.legible
  | anchor path => exact legible_tagged _ (.array (forall_mem_map.2 fun n _ => legible_ofNat n))

lemma Entry.legible (entry : Entry) : Json.Legible entry.toJson := by
  have items (items : List Leaf) : Json.Legible (.array (items.map Leaf.toJson)) :=
    .array (forall_mem_map.2 fun leaf _ => leaf.legible)
  cases entry with
  | value leaf => exact legible_tagged _ leaf.legible
  | allocate slot head =>
    refine legible_tagged _ (legible_record _ _ (legible_ofNat slot) ?_)
    cases head with
    | array | object => exact .string
    | closure target | member target => exact legible_tagged _ target.legible
  | fill slot body =>
    refine legible_tagged _ (legible_record _ _ (legible_ofNat slot) ?_)
    cases body with
    | elements leaves | captured leaves => exact legible_tagged _ (items leaves)
    | properties fields =>
      exact legible_tagged _ (.array (forall_mem_map.2 fun field _ =>
        .array (forall_mem_cons.2 ⟨.string,forall_mem_singleton.2 field.2.legible⟩)))

lemma Parsed.legible (parsed : Parsed) : Legible parsed.toJson :=
  legible_record _ _ (.object (forall_mem_map.2 fun _ _ => .string))
    (.array (forall_mem_map.2 fun entry _ => entry.legible))

lemma numberJson_inj {x y : Number} : numberJson x = numberJson y ↔ x.held = y.held := by
  have nan : ¬Number.nan.isFinite = true := by decide
  unfold numberJson Number.held
  split <;> split
  · next finite also =>
    exact ⟨fun same => Number.jsonText_injective finite also (number.inj same),fun same => by rw [same]⟩
  · next finite _ => exact iff_of_false nofun fun same => nan (same ▸ finite)
  · next _ finite => exact iff_of_false nofun fun same => nan (same ▸ finite)
  · exact iff_of_true rfl rfl

lemma ofNat_injective : Function.Injective Json.ofNat := by
  intro m n same
  have := congrArg (fun text => Number.digitsValue 10 (String.toList text)) (number.inj same)
  simpa [Nat.toList_repr,Number.digitsValue_toDigits] using this

lemma Target.toJson_inj {a b : Target} : a.toJson = b.toJson ↔ a = b := by
  cases a
  cases b
  simp [Target.toJson]

lemma map_eq_map_iff_of {α β γ : Type} {f : α → β} {g : α → γ} (same : ∀ {a b}, f a = f b ↔ g a = g b)
    {xs ys : List α} : xs.map f = ys.map f ↔ xs.map g = ys.map g := by
  induction xs generalizing ys with
  | nil => cases ys <;> simp
  | cons x xs ih => cases ys <;> simp [same,ih]

lemma Leaf.toJson_inj {a b : Leaf} : a.toJson = b.toJson ↔ a.held = b.held := by
  cases a <;> cases b <;> simp [Leaf.toJson,Leaf.held,tagged,numberJson_inj,ofNat_injective.eq_iff,Target.toJson_inj,
    (map_injective_iff.2 ofNat_injective).eq_iff]

lemma Head.toJson_inj {a b : Head} : a.toJson = b.toJson ↔ a = b := by
  cases a <;> cases b <;> simp [Head.toJson,tagged,Target.toJson_inj]

lemma Body.toJson_inj {a b : Body} : a.toJson = b.toJson ↔ a.held = b.held := by
  have fields {a b : String × Leaf} : array [.string a.1,a.2.toJson] = .array [.string b.1,b.2.toJson] ↔
      (a.1, a.2.held) = (b.1, b.2.held) := by
    simp [Leaf.toJson_inj]
  cases a <;> cases b <;> simp [Body.toJson,Body.held,tagged,map_eq_map_iff_of Leaf.toJson_inj,map_eq_map_iff_of fields]

lemma Entry.toJson_inj {a b : Entry} : a.toJson = b.toJson ↔ a.held = b.held := by
  cases a <;> cases b <;> simp [Entry.toJson,Entry.held,tagged,Leaf.toJson_inj,Head.toJson_inj,Body.toJson_inj,
    ofNat_injective.eq_iff]

/-- Two payloads have one text in JSON exactly if they differ at most in which of the numbers that JSON cannot hold
they have where. -/
theorem transport_text_eq_iff (a b : Parsed) : a.toJson.text = b.toJson.text ↔ a.held = b.held := by
  have loaders {a b : String × String} : (a.1, Json.string a.2) = (b.1, Json.string b.2) ↔ a = b := by
    simp [Prod.ext_iff]
  have values : a.toJson = b.toJson ↔ a.held = b.held := by
    simp [Parsed.toJson,Parsed.held,map_eq_map_iff_of Entry.toJson_inj,map_eq_map_iff_of loaders]
  exact ⟨fun same => values.1 (a.legible.text_injective b.legible same),fun same => by rw [values.2 same]⟩

/-- Two payloads that differ in the sign of infinity. -/
theorem infinities_look_alike : ∃ a b : Parsed, ofText "Infinity;" = .ok a ∧ ofText "-Infinity;" = .ok b ∧
    a.toJson.text = b.toJson.text ∧ a ≠ b :=
  ⟨{ entries := [.value (.number (.infinity false))] },{ entries := [.value (.number (.infinity true))] },
    by rfl,by rfl,by decide +kernel,by decide +kernel⟩

end Payload
end Resumable
