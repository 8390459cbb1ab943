import Resumable.Text.Quoted

/-! JSON values and their compact text. -/
namespace Resumable

inductive Json where
  | null
  | boolean (value : Bool)
  | number (text : String)
  | string (value : String)
  | array (items : List Json)
  | object (fields : List (String × Json))
  /-- A string that holds half of a surrogate pair, and so is no text. -/
  | broken

namespace Json

mutual

def text : Json → String
  | null => "null"
  | boolean value => if value then "true" else "false"
  | number text => text
  | string value => Text.jsonQuoted value
  | array items => "[" ++ itemsText items ++ "]"
  | object fields => "\x7b" ++ fieldsText fields ++ "\x7d"
  | broken => Text.jsonQuoted ""

def itemsText : List Json → String
  | [] => ""
  | [item] => text item
  | item :: rest => text item ++ "," ++ itemsText rest

def fieldsText : List (String × Json) → String
  | [] => ""
  | [(name, value)] => Text.jsonQuoted name ++ ":" ++ text value
  | (name, value) :: rest => Text.jsonQuoted name ++ ":" ++ text value ++ "," ++ fieldsText rest

end

def ofNat (n : Nat) : Json := number (toString n)

def ofOption {α : Type} (write : α → Json) : Option α → Json
  | some value => write value
  | none => null

def strings (texts : List String) : Json := array (texts.map string)

end Json

end Resumable
