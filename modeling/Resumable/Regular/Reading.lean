import Resumable.Regular.Matching
import Resumable.Text.Units

/-! Reading the text of a regular expression. Look-around, references to groups, and classes
without a table here are refused. -/
namespace Resumable.Regular

structure Flags where
  anyCase : Bool := false
  lines : Bool := false
  dotAll : Bool := false
  returns : Bool := false
  blanks : Bool := false
  unicode : Bool := true
  deriving DecidableEq, Repr

def Flags.set (flags : Flags) (letter : Char) (value : Bool) : Option Flags :=
  match letter with
  | 'i' => some { flags with anyCase := value }
  | 'm' => some { flags with lines := value }
  | 's' => some { flags with dotAll := value }
  | 'R' => some { flags with returns := value }
  | 'x' => some { flags with blanks := value }
  | 'u' => some { flags with unicode := value }
  | 'U' => some flags
  | _ => none

def readCount (text : List Char) : Option (Nat × List Char) :=
  let text := text.dropWhile Text.isSpace
  let digits := text.takeWhile Char.isDigit
  if digits.isEmpty then none
  else
    let value := digits.foldl (fun n c => 10 * n + (c.toNat - '0'.toNat)) 0
    if value < UInt32.size then some (value, (text.dropWhile Char.isDigit).dropWhile Text.isSpace)
    else none

def readCounts (text : List Char) : Option ((Nat × Option Nat) × List Char) := do
  let (least, rest) ← readCount text
  match rest with
  | '\x7d' :: rest => some ((least, some least), rest)
  | ',' :: rest =>
    match rest.dropWhile Text.isSpace with
    | '\x7d' :: rest => some ((least, none), rest)
    | rest =>
      let (most, rest) ← readCount rest
      match rest with
      | '\x7d' :: rest => if least ≤ most then some ((least, some most), rest) else none
      | _ => none
  | _ => none

def classKey (name : List Char) : String :=
  let letters := (name.filter fun c => !(c == ' ' || c == '_' || c == '-')).map Char.toLower
  match letters with
  | 'i' :: 's' :: c :: rest => String.ofList (c :: rest)
  | _ => String.ofList letters

def classOfName (name : List Char) : Option CharClass :=
  match classKey name with
  | "l" | "letter" | "gc=l" | "gc=letter" | "generalcategory=letter" => some .letter
  | "lu" | "uppercaseletter" | "gc=lu" => some .upper
  | "ll" | "lowercaseletter" | "gc=ll" => some .lower
  | "n" | "number" | "gc=n" => some .number
  | "nd" | "decimalnumber" | "digit" | "gc=nd" => some .digit
  | "whitespace" | "space" | "wspace" => some .space
  | "greek" | "grek" | "script=greek" | "sc=greek" => some .greek
  | "latin" | "latn" | "script=latin" | "sc=latin" => some .latin
  | "cyrillic" | "cyrl" | "script=cyrillic" | "sc=cyrillic" => some .cyrillic
  | "any" => some .any
  | "ascii" => some .ascii
  | _ => none

def bracketClassOfName (name : List Char) : Option CharClass :=
  match String.ofList name with
  | "alnum" => some .asciiAlnum
  | "alpha" => some .asciiAlpha
  | "ascii" => some .ascii
  | "blank" => some .asciiBlank
  | "cntrl" => some .asciiControl
  | "digit" => some .asciiDigit
  | "graph" => some .asciiGraph
  | "lower" => some .asciiLower
  | "print" => some .asciiPrint
  | "punct" => some .asciiPunctuation
  | "space" => some .asciiSpace
  | "upper" => some .asciiUpper
  | "word" => some .asciiWord
  | "xdigit" => some .asciiHex
  | _ => none

inductive Escaped where
  | literal (c : Char)
  | members (chars : CharSet)
  | condition (assertion : Assertion)
  deriving DecidableEq, Repr

def isHexDigit (c : Char) : Bool := CharClass.asciiHex.holds c

def scalar? (code : Nat) : Option Char := if code.isValidChar then some (Char.ofNat code) else none

def readCode (width : Nat) : List Char → Option (Char × List Char)
  | '\x7b' :: rest =>
    let digits := rest.takeWhile isHexDigit
    match rest.dropWhile isHexDigit with
    | '\x7d' :: rest =>
      if digits.isEmpty then none
      else (scalar? (digits.foldl (fun n c => 16 * n + Text.hexValue c) 0)).map (·, rest)
    | _ => none
  | text =>
    let digits := text.take width
    if digits.length == width && digits.all isHexDigit then
      (scalar? (digits.foldl (fun n c => 16 * n + Text.hexValue c) 0)).map (·, text.drop width)
    else none

def complementIf (negated : Bool) (members : CharSet) : CharSet :=
  if negated then .complement members else members

/-- A class shorthand; without Unicode its complement would hold parts of characters. -/
def shorthand (flags : Flags) (negated : Bool) (wide narrow : CharClass) : Option Escaped :=
  if flags.unicode then some (.members (complementIf negated (.named wide)))
  else if negated then none
  else some (.members (.named narrow))

def anyCaseIf (flags : Flags) (members : CharSet) : CharSet :=
  if flags.anyCase then .anyCase members else members

def readProperty (flags : Flags) (negated : Bool) (text : List Char) :
    Option (Escaped × List Char) := do
  if !flags.unicode then none
  let (name, rest) ← match text with
    | '\x7b' :: rest =>
      match rest.dropWhile (· != '\x7d') with
      | _ :: after => some (rest.takeWhile (· != '\x7d'), after)
      | [] => none
    | '\\' :: _ | [] => none
    | c :: rest => some ([c], rest)
  let members ← classOfName name
  return (.members (complementIf negated (anyCaseIf flags (.named members))), rest)

def isMeta (c : Char) : Bool := "\\.+*?()|[]\x7b\x7d^$#&-~".toList.contains c

def namedBoundary (inWord : CharClass) (text : List Char) : Option (Assertion × List Char) :=
  let names : List (String × Assertion) :=
    [("\x7bstart\x7d", .wordStart inWord),("\x7bend\x7d", .wordEnd inWord),
     ("\x7bstart-half\x7d", .wordStartHalf inWord),("\x7bend-half\x7d", .wordEndHalf inWord)]
  names.findSome? fun (name, assertion) =>
    if name.toList.isPrefixOf text then some (assertion, text.drop name.length) else none

def readEscape (flags : Flags) : List Char → Option (Escaped × List Char)
  | [] => none
  | c :: rest =>
    let inWord := if flags.unicode then CharClass.word else CharClass.asciiWord
    match c with
    | 'd' => (shorthand flags false .digit .asciiDigit).map (·, rest)
    | 'D' => (shorthand flags true .digit .asciiDigit).map (·, rest)
    | 's' => (shorthand flags false .space .asciiSpace).map (·, rest)
    | 'S' => (shorthand flags true .space .asciiSpace).map (·, rest)
    | 'w' => (shorthand flags false .word .asciiWord).map (·, rest)
    | 'W' => (shorthand flags true .word .asciiWord).map (·, rest)
    | 'p' => readProperty flags false rest
    | 'P' => readProperty flags true rest
    | 'x' => (readCode 2 rest).map fun (c, rest) => (.literal c, rest)
    | 'u' => (readCode 4 rest).map fun (c, rest) => (.literal c, rest)
    | 'U' => (readCode 8 rest).map fun (c, rest) => (.literal c, rest)
    | 'a' => some (.literal '\x07', rest)
    | 'f' => some (.literal '\x0c', rest)
    | 't' => some (.literal '\t', rest)
    | 'n' => some (.literal '\n', rest)
    | 'r' => some (.literal '\r', rest)
    | 'v' => some (.literal '\x0b', rest)
    | 'A' => some (.condition .textStart, rest)
    | 'z' => some (.condition .textEnd, rest)
    | 'b' =>
      match namedBoundary inWord rest with
      | some (assertion, rest) => some (.condition assertion, rest)
      | none => some (.condition (.boundary inWord), rest)
    | 'B' => if flags.unicode then some (.condition (.notBoundary inWord), rest) else none
    | '<' => some (.condition (.wordStart inWord), rest)
    | '>' => some (.condition (.wordEnd inWord), rest)
    | c =>
      if isMeta c || (c.toNat < 128 && !c.isAlphanum) then some (.literal c, rest) else none

def skipBlanks (flags : Flags) (fuel : Nat) (text : List Char) : List Char :=
  if !flags.blanks then text
  else match fuel with
    | 0 => text
    | fuel + 1 =>
      match text with
      | '#' :: rest => skipBlanks flags fuel (rest.dropWhile (· != '\n'))
      | c :: rest => if Text.isSpace c then skipBlanks flags fuel rest else c :: rest
      | [] => []

def passBlanks (flags : Flags) (text : List Char) : List Char := skipBlanks flags (text.length + 1) text

def readBracketClass : List Char → Option (CharSet × List Char)
  | ':' :: rest =>
    let (negated, rest) := match rest with
      | '^' :: rest => (true, rest)
      | rest => (false, rest)
    let name := rest.takeWhile (· != ':')
    match rest.dropWhile (· != ':') with
    | ':' :: ']' :: rest =>
      (bracketClassOfName name).map fun members => (complementIf negated (.named members), rest)
    | _ => none
  | _ => none

def readMember (flags : Flags) : List Char → Option (Escaped × List Char)
  | [] => none
  | '\\' :: rest => readEscape flags rest
  | c :: rest => some (.literal c, rest)

/-- A member, or a range of characters. A hyphen before the closing bracket, or before another
hyphen, makes no range. -/
def readRange (flags : Flags) (text : List Char) : Option (CharSet × List Char) := do
  let (first, rest) ← readMember flags text
  let rest := passBlanks flags rest
  let alone : Option (CharSet × List Char) :=
    match first with
    | .literal c => some (.single c, rest)
    | .members chars => some (chars, rest)
    | .condition _ => none
  match rest with
  | [] => none
  | '-' :: after =>
    match passBlanks flags after with
    | ']' :: _ | '-' :: _ => alone
    | after =>
      let (second, rest) ← readMember flags after
      match first, second with
      | .literal low, .literal high => if low ≤ high then some (.range low high, rest) else none
      | _, _ => none
  | _ => alone

abbrev PendingOp := Option (SetOp × CharSet)

def applyPending (flags : Flags) (pending : PendingOp) (right : CharSet) : CharSet :=
  match pending with
  | none => right
  | some (op, left) => .combine op (anyCaseIf flags left) (anyCaseIf flags right)

def addMember (members : Option CharSet) (new : CharSet) : Option CharSet :=
  match members with
  | none => some new
  | some old => some (.combine .union old new)

def leadingMembers : List Char → Option CharSet → Option CharSet × List Char
  | '-' :: rest, members => leadingMembers rest (addMember members (.single '-'))
  | ']' :: rest, none => (some (.single ']'), rest)
  | text, members => (members, text)

/-- A set in brackets, after its `[`. Set operations have one rank and group to the left; members
side by side bind tighter. -/
def readSet (flags : Flags) : Nat → List Char → Option (CharSet × List Char)
  | 0, _ => none
  | depth + 1, text =>
    let (negated, text) := match text with
      | '^' :: rest => (true, passBlanks flags rest)
      | text => (false, passBlanks flags text)
    let (members, text) := leadingMembers text none
    let rec go : Nat → PendingOp → Option CharSet → List Char → Option (CharSet × List Char)
      | 0, _, _, _ => none
      | fuel + 1, pending, members, text =>
        let sofar := applyPending flags pending (members.getD .none)
        match passBlanks flags text with
        | [] => none
        | '[' :: rest =>
          match readBracketClass rest with
          | some (inner, rest) => go fuel pending (addMember members inner) rest
          | none =>
            (readSet flags depth rest).bind fun (inner, rest) =>
              go fuel pending (addMember members inner) rest
        | ']' :: rest =>
          if negated && !flags.unicode then none
          else some (complementIf negated (anyCaseIf flags sofar), rest)
        | '&' :: '&' :: rest => go fuel (some (.intersection, sofar)) none rest
        | '-' :: '-' :: rest => go fuel (some (.difference, sofar)) none rest
        | '~' :: '~' :: rest => go fuel (some (.symmetricDifference, sofar)) none rest
        | text =>
          (readRange flags text).bind fun (inner, rest) => go fuel pending (addMember members inner) rest
    go (text.length + 1) none members text

/-- An expression under construction at one depth of groups: the alternatives that are complete
and, last first, the items of the current one. An item that cannot be repeated is `none`. -/
structure Level where
  flags : Flags := {}
  alternatives : List Expr := []
  items : List (Option Expr) := []
  deriving Repr

def sequenceOf : List Expr → Expr
  | [] => .empty
  | [expr] => expr
  | first :: rest => .sequence first (sequenceOf rest)

def eitherOf : List Expr → Expr
  | [] => .empty
  | [expr] => expr
  | first :: rest => .either first (eitherOf rest)

namespace Level

def current (level : Level) : Expr := sequenceOf (level.items.reverse.filterMap id)

def result (level : Level) : Expr := eitherOf (level.alternatives ++ [level.current])

def push (level : Level) (expr : Expr) : Level := { level with items := some expr :: level.items }

def bar (level : Level) : Level :=
  { level with alternatives := level.alternatives ++ [level.current], items := [] }

def repeatLast (level : Level) (least : Nat) (most : Option Nat) : Option Level :=
  match level.items with
  | some body :: items => some { level with items := some (.times least most body) :: items }
  | _ => none

end Level

structure Progress where
  level : Level := {}
  outer : List Level := []
  groups : List (List Char) := []
  deriving Repr

def readFlags : List Char → Flags → Bool → List Char → Option (Flags × List Char)
  | [], _, _, _ => none
  | c :: rest, flags, value, seen =>
    if c == ':' || c == ')' then
      if seen.isEmpty && c == ')' || seen.head? == some '-' then none else some (flags, c :: rest)
    else if seen.contains c then none
    else if c == '-' then readFlags rest flags false (c :: seen)
    else (flags.set c value).bind fun flags => readFlags rest flags value (c :: seen)

def isGroupNameStart (c : Char) : Bool := c == '_' || Text.isLetter c

def isGroupNamePart (c : Char) : Bool :=
  c == '_' || c == '.' || c == '[' || c == ']' || Text.isLetter c || Text.isNumber c

def openGroup (progress : Progress) (text : List Char) : Option (Progress × List Char) :=
  let inside (flags : Flags) (groups : List (List Char)) : Progress :=
    { level := { flags }, outer := progress.level :: progress.outer, groups }
  let named (rest : List Char) : Option (Progress × List Char) :=
    let name := rest.takeWhile (· != '>')
    match rest.dropWhile (· != '>') with
    | _ :: rest =>
      if name.head?.any isGroupNameStart && name.all isGroupNamePart &&
          !progress.groups.contains name then
        some (inside progress.level.flags (name :: progress.groups), rest)
      else none
    | [] => none
  match text with
  | '?' :: 'P' :: '<' :: rest => named rest
  | '?' :: '<' :: c :: rest => if c == '=' || c == '!' then none else named (c :: rest)
  | '?' :: rest =>
    match readFlags rest progress.level.flags true [] with
    | some (flags, ':' :: rest) => some (inside flags progress.groups, rest)
    | some (flags, ')' :: rest) =>
      let level := { progress.level with flags, items := none :: progress.level.items }
      some ({ progress with level }, rest)
    | _ => none
  | text => some (inside progress.level.flags progress.groups, text)

def literal (flags : Flags) (c : Char) : Expr := .one (anyCaseIf flags (.single c))

def dot (flags : Flags) : Option Expr :=
  if !flags.unicode then none
  else if flags.dotAll then some (.one (.named .any))
  else if flags.returns then
    some (.one (.complement (.combine .union (.single '\n') (.single '\r'))))
  else some (.one (.complement (.single '\n')))

def passLazy : List Char → List Char
  | '?' :: rest => rest
  | text => text

def readItem (progress : Progress) (text : List Char) : Option (Progress × List Char) :=
  let flags := progress.level.flags
  let push (expr : Expr) (rest : List Char) : Option (Progress × List Char) :=
    some ({ progress with level := progress.level.push expr }, rest)
  let repeated (least : Nat) (most : Option Nat) (rest : List Char) :
      Option (Progress × List Char) :=
    (progress.level.repeatLast least most).map fun level => ({ progress with level }, passLazy rest)
  match text with
  | [] => none
  | '(' :: rest => openGroup progress rest
  | ')' :: rest =>
    match progress.outer with
    | level :: outer => some ({ progress with level := level.push progress.level.result, outer }, rest)
    | [] => none
  | '|' :: rest => some ({ progress with level := progress.level.bar }, rest)
  | '[' :: rest => (readSet flags text.length rest).bind fun (chars, rest) => push (.one chars) rest
  | '*' :: rest => repeated 0 none rest
  | '+' :: rest => repeated 1 none rest
  | '?' :: rest => repeated 0 (some 1) rest
  | '\x7b' :: rest => (readCounts rest).bind fun ((least, most), rest) => repeated least most rest
  | '.' :: rest => (dot flags).bind fun expr => push expr rest
  | '^' :: rest =>
    push (.asserts (if flags.lines then .lineStart flags.returns else .textStart)) rest
  | '$' :: rest =>
    push (.asserts (if flags.lines then .lineEnd flags.returns else .textEnd)) rest
  | '\\' :: rest =>
    (readEscape flags rest).bind fun (escaped, rest) =>
      match escaped with
      | .literal c => push (literal flags c) rest
      | .members chars => push (.one chars) rest
      | .condition assertion => push (.asserts assertion) rest
  | c :: rest => push (literal flags c) rest

def readItems : Nat → Progress → List Char → Option Expr
  | 0, _, _ => none
  | fuel + 1, progress, text =>
    match passBlanks progress.level.flags text with
    | [] => if progress.outer.isEmpty then some progress.level.result else none
    | text => (readItem progress text).bind fun (progress, rest) => readItems fuel progress rest

def Expr.ofText? (text : String) : Option Expr := readItems (text.length + 1) {} text.toList

end Resumable.Regular
