import Resumable.Script.Escape
import Resumable.Script.Numeral

/-! Tokens of a script, read one at a time: what a `/` or a `>` starts depends on what the grammar
expects there. -/
namespace Resumable.Script

inductive Kind where
  | word
  | privateName
  | mark
  | string
  | number
  | bigint
  | regex
  | templatePart
  | templateEnd
  | jsxText
  | invalid
  | done
  deriving DecidableEq, Repr

structure Token where
  kind : Kind
  span : Span
  text : String := ""
  value : Number := Number.zero false
  newline : Bool := false
  escaped : Bool := false
  deriving Repr

namespace Token

def is (token : Token) (text : String) : Bool :=
  (token.kind == .mark || (token.kind == .word && !token.escaped)) && token.text == text

def isAny (token : Token) (texts : List String) : Bool := texts.any token.is

end Token

def reservedWords : List String :=
  ["break","case","catch","class","const","continue","debugger","default","delete","do",
   "else","enum","export","extends","false","finally","for","function","if","import","in",
   "instanceof","new","null","return","super","switch","this","throw","true","try",
   "typeof","var","void","while","with"]

namespace Token

def isReserved (token : Token) : Bool :=
  token.kind == .word && !token.escaped && reservedWords.contains token.text

def isName (token : Token) : Bool := token.kind == .word && !token.isReserved

end Token

structure Reading where
  token : Token
  rest : List Char
  faults : List Fault := []
  deriving Repr

structure Word where
  name : List Char
  rest : List Char
  size : Nat
  escaped : Bool := false
  fault : Option Nat := none
  deriving Repr

def readWord : Nat → Bool → List Char → Word
  | 0, _, text => ⟨[],text,0,false,none⟩
  | _, _, [] => ⟨[],[],0,false,none⟩
  | fuel + 1, first, c :: rest =>
    let allowed := if first then Text.isIdentifierStart else Text.isIdentifierPart
    if c == '\\' then
      match rest with
      | 'u' :: rest =>
        let escape := readPoint rest
        match escape.valid, escape.points with
        | true, [point] =>
          if allowed (Char.ofNat point) then
            let word := readWord fuel false escape.rest
            { word with
              name := Char.ofNat point :: word.name
              size := word.size + escape.size + 2
              escaped := true
              fault := word.fault.map (· + escape.size + 2) }
          else ⟨[],escape.rest,escape.size + 2,true,some 0⟩
        | _, _ => ⟨[],escape.rest,escape.size + 2,true,some 0⟩
      | rest => ⟨[],rest,1,true,some 0⟩
    else if allowed c then
      let word := readWord fuel false rest
      { word with
        name := c :: word.name
        size := word.size + c.utf8Size
        fault := word.fault.map (· + c.utf8Size) }
    else ⟨[],c :: rest,0,false,none⟩

structure Quote where
  points : List Nat
  rest : List Char
  size : Nat
  closed : Bool
  faults : List Nat := []
  deriving Repr

def readQuote (quote : Char) : Nat → List Char → Quote
  | 0, text => ⟨[],text,0,false,[]⟩
  | _, [] => ⟨[],[],0,false,[]⟩
  | fuel + 1, c :: rest =>
    if c == quote then ⟨[],rest,1,true,[]⟩
    else if c == '\n' || c == '\r' then ⟨[],rest,1,false,[]⟩
    else if c == '\\' then
      let escape := readEscape false rest
      let quote := readQuote quote fuel escape.rest
      let faults := quote.faults.map (· + escape.size + 1)
      { quote with
        points := escape.points ++ quote.points
        size := quote.size + escape.size + 1
        faults := if escape.valid then faults else 0 :: faults }
    else
      let quote := readQuote quote fuel rest
      { quote with
        points := c.toNat :: quote.points
        size := quote.size + c.utf8Size
        faults := quote.faults.map (· + c.utf8Size) }

/-- A part of a template after its opening mark: what follows, the length with the closing mark,
whether a substitution follows, and whether every escape is valid. -/
structure Fragment where
  rest : List Char
  size : Nat
  /-- `none` if the template does not end. -/
  substitution : Option Bool
  valid : Bool := true
  deriving Repr

def readFragment : Nat → List Char → Fragment
  | 0, text => ⟨text,0,none,true⟩
  | _, [] => ⟨[],0,none,true⟩
  | fuel + 1, c :: rest =>
    match c, rest with
    | '\x60', rest => ⟨rest,1,some false,true⟩
    | '$', '\x7b' :: rest => ⟨rest,2,some true,true⟩
    | '\\', rest =>
      let escape := readEscape true rest
      let fragment := readFragment fuel escape.rest
      { fragment with
        size := fragment.size + escape.size + 1
        valid := fragment.valid && escape.valid }
    | c, rest =>
      let fragment := readFragment fuel rest
      { fragment with size := fragment.size + c.utf8Size }

/-- Punctuation, longer marks before their beginnings. A `>` is always read alone. -/
def marks : List String :=
  ["...","===","!==","**=","<<=","&&=","||=","??=",
   "=>","==","!=","++","--","+=","-=","*=","/=","%=","&=","|=","^=","&&","||","??",
   "**","<<","<=","?.",
   "\x7b","\x7d","(",")","[","]",".",";",",","<",">","=","!","+","-","*","/","%",
   "&","|","^","~","?",":","@"]

/-- A `?.` in front of a digit is a question mark and a number. -/
def fitsMark (text : List Char) (mark : String) : Bool :=
  mark.toList.isPrefixOf text && !(mark == "?." && ((text.drop 2).head?.map Text.isAsciiDigit).getD false)

def readMark? (text : List Char) : Option String := marks.find? (fitsMark text)

def wordToken (kind : Kind) (start before : Nat) (newline : Bool) (word : Word) : Reading :=
  let stop := start + before + word.size
  { token :=
      { kind := if word.fault.isSome then .invalid else kind
        span := ⟨start,stop⟩
        text := String.ofList word.name
        newline
        escaped := word.escaped }
    rest := word.rest
    faults := (word.fault.map fun place => ⟨start + before + place,.invalidEscape⟩).toList }

def stringToken (start : Nat) (newline : Bool) (quote : Quote) : Reading :=
  let span : Span := ⟨start,start + 1 + quote.size⟩
  let faults := quote.faults.map fun place => ⟨start + 1 + place,.invalidEscape⟩
  if quote.closed then
    { token := { kind := .string, span, text := pointsText quote.points, newline }
      rest := quote.rest, faults }
  else
    { token := { kind := .invalid, span, newline }
      rest := quote.rest, faults := faults ++ [⟨start,.unterminated "string"⟩] }

def fragmentToken (start : Nat) (newline : Bool) (fragment : Fragment) : Reading :=
  let span : Span := ⟨start,start + 1 + fragment.size⟩
  let token (kind : Kind) : Token := { kind, span, newline, escaped := !fragment.valid }
  match fragment.substitution with
  | some true => { token := token .templatePart, rest := fragment.rest }
  | some false => { token := token .templateEnd, rest := fragment.rest }
  | none =>
    { token := token .invalid, rest := fragment.rest
      faults := [⟨start,.unterminated "template"⟩] }

def numberToken (start : Nat) (newline : Bool) (numeral : Numeral) : Reading :=
  let span : Span := ⟨start,start + numeral.size⟩
  match numeral.fault with
  | some place =>
    { token := { kind := .invalid, span, newline }
      rest := numeral.rest, faults := [⟨start + place,.invalidCharacter⟩] }
  | none =>
    { token :=
        { kind := if numeral.bigint then .bigint else .number
          span, newline, value := numeral.value }
      rest := numeral.rest }

def invalidToken (start size : Nat) (newline : Bool) (rest : List Char) : Reading :=
  { token := { kind := .invalid, span := ⟨start,start + size⟩, newline }
    rest, faults := [⟨start,.invalidCharacter⟩] }

def startsNumber : List Char → Bool
  | '.' :: c :: _ => Text.isAsciiDigit c
  | c :: _ => Text.isAsciiDigit c
  | [] => false

def readPrivateName (start : Nat) (newline : Bool) (text : List Char) : Reading :=
  match text with
  | [] =>
    { token := { kind := .invalid, span := ⟨start,start + 1⟩, newline }
      rest := [], faults := [⟨start + 1,.unexpected⟩] }
  | c :: rest =>
    if Text.isIdentifierStart c || c == '\\' then
      wordToken .privateName start 1 newline (readWord (text.length + 1) true text)
    else
      { token := { kind := .invalid, span := ⟨start,start + 1 + c.utf8Size⟩, newline }
        rest, faults := [⟨start + 1,.invalidCharacter⟩] }

def readHere (start : Nat) (newline : Bool) (text : List Char) : Reading :=
  match text with
  | [] => { token := { kind := .done, span := ⟨start,start⟩, newline }, rest := [] }
  | c :: rest =>
    if Text.isIdentifierStart c || c == '\\' then
      wordToken .word start 0 newline (readWord (text.length + 1) true text)
    else if startsNumber text then numberToken start newline (readNumeral text)
    else if c == '"' || c == '\'' then
      stringToken start newline (readQuote c (rest.length + 1) rest)
    else if c == '\x60' then fragmentToken start newline (readFragment (rest.length + 1) rest)
    else if c == '#' then readPrivateName start newline rest
    else
      match readMark? text with
      | some mark =>
        { token :=
            { kind := .mark, span := ⟨start,start + mark.length⟩, text := mark, newline }
          rest := text.drop mark.length }
      | none => invalidToken start c.utf8Size newline rest

def readToken (markup : Bool) (offset : Nat) (text : List Char) : Reading :=
  let passed := pass markup .blanks false offset text
  let reading := readHere passed.offset passed.newline passed.rest
  { reading with faults := passed.fault.toList ++ reading.faults }

def readJsxChild (offset : Nat) (text : List Char) : Reading :=
  match text with
  | [] => { token := { kind := .done, span := ⟨offset,offset⟩ }, rest := [] }
  | c :: rest =>
    if c == '<' || c == '\x7b' then
      { token := { kind := .mark, span := ⟨offset,offset + 1⟩, text := c.toString }, rest }
    else
      let body := text.takeWhile fun c => c != '<' && c != '\x7b'
      { token := { kind := .jsxText, span := ⟨offset,offset + Text.byteLength body⟩ }
        rest := text.drop body.length }

def readJsxValue (markup : Bool) (offset : Nat) (text : List Char) : Reading :=
  let passed := pass markup .blanks false offset text
  match passed.rest with
  | quote :: rest =>
    if quote == '"' || quote == '\'' then
      let body := rest.takeWhile (· != quote)
      let span : Span := ⟨passed.offset,passed.offset + 2 + Text.byteLength body⟩
      match rest.drop body.length with
      | _ :: after =>
        { token := { kind := .string, span, text := String.ofList body, newline := passed.newline }
          rest := after, faults := passed.fault.toList }
      | [] =>
        { token := { kind := .invalid, span, newline := passed.newline }
          rest := []
          faults := passed.fault.toList ++ [⟨passed.offset,.unterminated "string"⟩] }
    else readToken markup offset text
  | [] => readToken markup offset text

def readDashed (text : List Char) : List Char × List Char :=
  let more := text.takeWhile fun c => c == '-' || Text.isIdentifierPart c
  (more, text.drop more.length)

/-- The body of a regular expression after its opening slash: its length with the closing one, and
what follows; no result if it does not end on its line. -/
def readRegexBody : Bool → List Char → Option (Nat × List Char)
  | _, [] => none
  | inClass, c :: rest =>
    if isLineBreak c then none
    else if c == '\\' then
      match rest with
      | [] => none
      | d :: rest =>
        if isLineBreak d then none
        else (readRegexBody inClass rest).map fun (size, after) =>
          (size + c.utf8Size + d.utf8Size, after)
    else if c == '/' && !inClass then some (1, rest)
    else
      let inside := if c == '[' then true else if c == ']' then false else inClass
      (readRegexBody inside rest).map fun (size, after) => (size + c.utf8Size, after)

def regexFlags : List Char := ['d','g','i','m','s','u','v','y']

def flagFaults : Nat → List Char → List Char → List Fault
  | _, _, [] => []
  | offset, seen, c :: rest =>
    let fault := if regexFlags.contains c && !seen.contains c then []
      else [⟨offset + 1,.misplaced "This flag"⟩]
    fault ++ flagFaults (offset + 1) (c :: seen) rest

def isFlag (c : Char) : Bool := Text.isAsciiLetter c || Text.isAsciiDigit c || c == '$' || c == '_'

def readRegex (start : Nat) (newline : Bool) (text : List Char) : Reading :=
  match readRegexBody false text with
  | none =>
    { token := { kind := .invalid, span := ⟨start,start + 1⟩, newline }
      rest := text, faults := [⟨start,.unterminated "regular expression"⟩] }
  | some (size, rest) =>
    let flags := rest.takeWhile isFlag
    { token := { kind := .regex, span := ⟨start,start + 1 + size + flags.length⟩, newline }
      rest := rest.drop flags.length
      faults := flagFaults (start + 1 + size) [] flags }

end Resumable.Script
