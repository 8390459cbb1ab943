/-! The marks of an HTML text: tags, comments, declarations and the text between them. Attributes
are passed over, since a document here is its shape. -/
namespace Resumable.Markup

inductive Mark where
  | opening (name : String) (selfClosing : Bool)
  | closing (name : String)
  | filled (name : String) (content : List Char)
  | comment
  | doctype
  | text (content : List Char)
  deriving DecidableEq, Repr

def isSpace (c : Char) : Bool := c == ' ' || c == '\n' || c == '\t' || c == '\r' || c == '\x0c'

/-- Passes the attributes of a tag up to its end; `slash` if a slash came last. A tag that does not
end has no result. -/
def passAttributes : Nat → Bool → List Char → Option (Bool × List Char)
  | 0, _, _ => none
  | _, _, [] => none
  | fuel + 1, slash, c :: rest =>
    if c == '>' then some (slash, rest)
    else if c == '/' then passAttributes fuel true rest
    else if c == '=' then
      match rest.dropWhile isSpace with
      | quote :: more =>
        if quote == '"' || quote == '\'' then
          match more.dropWhile (· != quote) with
          | _ :: after => passAttributes fuel false after
          | [] => none
        else if quote == '>' then some (false, more)
        else passAttributes fuel false (more.dropWhile fun c => !isSpace c && c != '>')
      | [] => none
    else passAttributes fuel false rest

def isNameEnd (c : Char) : Bool := isSpace c || c == '/' || c == '>'

def readName (text : List Char) : String × List Char :=
  (String.ofList ((text.takeWhile fun c => !isNameEnd c).map Char.toLower),
    text.dropWhile fun c => !isNameEnd c)

def passComment : List Char → List Char
  | [] => []
  | '-' :: '-' :: '>' :: rest => rest
  | '-' :: '-' :: '!' :: '>' :: rest => rest
  | _ :: rest => passComment rest

def afterComment : List Char → List Char
  | '>' :: rest => rest
  | '-' :: '>' :: rest => rest
  | text => passComment text

def afterGreater (text : List Char) : List Char := (text.dropWhile (· != '>')).drop 1

def holdsText (name : String) : Bool :=
  ["title","textarea","style","script","xmp","iframe","noembed","noframes",
   "noscript"].contains name

def splitContent (name : List Char) : List Char → List Char × List Char
  | [] => ([], [])
  | c :: rest =>
    let after := rest.drop (name.length + 1)
    let ends := c == '<' && rest.head? == some '/' &&
      name.isPrefixOf ((rest.drop 1).map Char.toLower) && (after.head?.map isNameEnd).getD false
    if ends then ([], ((passAttributes (after.length + 1) false after).map (·.2)).getD [])
    else
      let (content, after) := splitContent name rest
      (c :: content, after)

def dropsLineFeed (name : String) : Bool := ["pre","listing","textarea"].contains name

def dropLineFeed (name : String) (text : List Char) : List Char :=
  match text with
  | '\n' :: rest => if dropsLineFeed name then rest else text
  | _ => text

def readText : List Char → List Char × List Char
  | [] => ([], [])
  | c :: rest =>
    let opens := c == '<' && (match rest with
      | next :: _ => next.isAlpha || next == '/' || next == '!' || next == '?'
      | [] => false)
    if opens then ([], c :: rest)
    else
      let (content, after) := readText rest
      (c :: content, after)

def textMark (content : List Char) : List Mark := if content.isEmpty then [] else [.text content]

def readMark (text : List Char) : List Mark × List Char :=
  match text with
  | '<' :: '!' :: '-' :: '-' :: rest => ([.comment], afterComment rest)
  | '<' :: '!' :: rest =>
    if (rest.take 7).map Char.toLower == "doctype".toList then ([.doctype], afterGreater rest)
    else ([.comment], afterGreater rest)
  | '<' :: '?' :: rest => ([.comment], afterGreater rest)
  | '<' :: '/' :: rest =>
    match rest with
    | c :: _ =>
      if c.isAlpha then
        let (name, after) := readName rest
        match passAttributes (after.length + 1) false after with
        | some (_, after) => ([.closing name], after)
        | none => ([], [])
      else if c == '>' then ([], rest.drop 1)
      else ([.comment], afterGreater rest)
    | [] => ([.text text], [])
  | '<' :: rest =>
    if (rest.head?.map Char.isAlpha).getD false then
      let (name, after) := readName rest
      match passAttributes (after.length + 1) false after with
      | some (slash, after) =>
        let after := dropLineFeed name after
        if holdsText name then
          let (content, after) := splitContent name.toList after
          ([.filled name content], after)
        else ([.opening name slash], after)
      | none => ([], [])
    else
      let (content, after) := readText rest
      ([.text ('<' :: content)], after)
  | text =>
    let (content, after) := readText text
    (textMark content, after)

def readMarks : Nat → List Char → List Mark
  | 0, _ => []
  | _, [] => []
  | fuel + 1, text =>
    let (marks, rest) := readMark text
    marks ++ readMarks fuel rest

def marks (text : String) : List Mark := readMarks text.length text.toList

end Resumable.Markup
