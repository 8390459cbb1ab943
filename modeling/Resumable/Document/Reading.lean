import Resumable.Document.Basic
import Resumable.Document.Markup

/-! Documents from HTML text. Tags that may be left out are supplied: the three elements that every
document has, the ends of paragraphs and list items, the body and rows of a table. -/
namespace Resumable.Document

open Markup (Mark)

inductive Stage where
  | start
  | beforeHtml
  | beforeHead
  | head
  | afterHead
  | body
  | afterBody
  | afterAll
  deriving DecidableEq, Repr

structure Builder where
  document : Document := .empty
  stage : Stage := .start
  «open» : List (NodeId × String) := []
  head : Option NodeId := none
  /-- A document without a declaration is read leniently in one respect: a table may stand in a
  paragraph. -/
  hasDoctype : Bool := false
  deriving Repr

namespace Builder

def current (builder : Builder) : NodeId := (builder.open.head?.map (·.1)).getD root

def currentName (builder : Builder) : String := (builder.open.head?.map (·.2)).getD ""

def add (builder : Builder) (parent : NodeId) (kind : NodeKind) : NodeId × Builder :=
  let (id, document) := builder.document.append parent kind
  (id, { builder with document })

def comment (builder : Builder) (parent : NodeId) : Builder := (builder.add parent .comment).2

def enter (builder : Builder) (name : String) : Builder :=
  let (id, builder) := builder.add builder.current (.element name)
  { builder with «open» := (id, name) :: builder.open }

def leave (builder : Builder) : Builder := { builder with «open» := builder.open.drop 1 }

def addText (builder : Builder) (content : List Char) : Builder :=
  if content.isEmpty then builder
  else
    let last := (builder.document.children builder.current).getLast?
    let joins := (last.bind builder.document.node?).any fun node => node.kind == .text
    if joins then builder else (builder.add builder.current .text).2

def isVoid (name : String) : Bool :=
  ["area","base","basefont","bgsound","br","col","embed","frame","hr","img","input",
   "keygen","link","meta","param","source","track","wbr"].contains name

def endsParagraph (name : String) : Bool :=
  ["address","article","aside","blockquote","center","dd","details","dialog","dir","div",
   "dl","dt","fieldset","figcaption","figure","footer","form","h1","h2","h3","h4","h5",
   "h6","header","hgroup","hr","li","listing","main","menu","nav","ol","p","plaintext",
   "pre","search","section","summary","ul","xmp"].contains name

def isHeading (name : String) : Bool := ["h1","h2","h3","h4","h5","h6"].contains name

def isSpecial (name : String) : Bool :=
  endsParagraph name || isVoid name ||
    ["applet","body","button","caption","colgroup","frameset","head","html","iframe",
     "marquee","noembed","noframes","noscript","object","script","select","style","table",
     "tbody","td","template","textarea","tfoot","th","thead","title","tr"].contains name

def isBoundary (name : String) : Bool :=
  ["applet","caption","html","table","td","th","marquee","object","template"].contains name

def inScope (builder : Builder) (extra names : List String) : Bool :=
  match builder.open.find? fun entry =>
      names.contains entry.2 || isBoundary entry.2 || extra.contains entry.2 with
  | some entry => names.contains entry.2
  | none => false

def leaveThrough (builder : Builder) (names : List String) : Builder :=
  { builder with
    «open» := (builder.open.dropWhile fun entry => !names.contains entry.2).drop 1 }

def leaveTo (builder : Builder) (names : List String) : Builder :=
  { builder with «open» := builder.open.dropWhile fun entry => !names.contains entry.2 }

def closeParagraph (builder : Builder) : Builder :=
  if builder.inScope ["button"] ["p"] then builder.leaveThrough ["p"] else builder

def closeItem (builder : Builder) (names : List String) : Builder :=
  let blocks := fun name =>
    isSpecial name && !(["address","div","p"].contains name)
  match builder.open.find? fun entry => names.contains entry.2 || blocks entry.2 with
  | some entry => if names.contains entry.2 then builder.leaveThrough names else builder
  | none => builder

def inForeign (builder : Builder) : Bool :=
  builder.open.any fun entry => entry.2 == "svg" || entry.2 == "math"

def enterTablePart (builder : Builder) (name : String) : Builder :=
  if !builder.inScope [] ["table"] then builder
  else if name == "td" || name == "th" then
    let inner := builder.leaveTo ["tr","tbody","thead","tfoot","table","html"]
    let inner := if inner.currentName == "table" then inner.enter "tbody" else inner
    let inner := if inner.currentName != "tr" then inner.enter "tr" else inner
    inner.enter name
  else if name == "tr" then
    let inner := builder.leaveTo ["tbody","thead","tfoot","table","html"]
    let inner := if inner.currentName == "table" then inner.enter "tbody" else inner
    inner.enter name
  else if name == "col" then
    let inner := builder.leaveTo ["colgroup","table","html"]
    let inner := if inner.currentName == "table" then inner.enter "colgroup" else inner
    (inner.enter name).leave
  else (builder.leaveTo ["table","html"]).enter name

def isTablePart (name : String) : Bool :=
  ["caption","col","colgroup","tbody","td","tfoot","th","thead","tr"].contains name

def openInBody (builder : Builder) (name : String) (selfClosing : Bool) : Builder :=
  let name := if name == "image" then "img" else name
  if builder.inForeign then
    let inner := builder.enter name
    if selfClosing then inner.leave else inner
  else if ["html","head","body","frameset","frame"].contains name then builder
  else if isTablePart name then builder.enterTablePart name
  else
    let builder :=
      if name == "li" then builder.closeItem ["li"]
      else if name == "dd" || name == "dt" then builder.closeItem ["dd","dt"]
      else builder
    let builder :=
      if endsParagraph name || (name == "table" && builder.hasDoctype) then builder.closeParagraph
      else builder
    let builder :=
      if isHeading name && isHeading builder.currentName then builder.leave
      else if (name == "option" || name == "optgroup") && builder.currentName == "option" then
        builder.leave
      else if name == "button" && builder.inScope [] ["button"] then
        builder.leaveThrough ["button"]
      else if name == "a" && builder.inScope [] ["a"] then builder.leaveThrough ["a"]
      else builder
    let inner := builder.enter name
    if isVoid name || (selfClosing && (name == "svg" || name == "math")) then inner.leave
    else inner

/-- An end tag without a rule of its own closes the innermost open element of its name, unless an
element stands in between that it does not reach through. -/
def closeOther (builder : Builder) (name : String) : Builder :=
  match builder.open.find? fun entry => entry.2 == name || isSpecial entry.2 with
  | some entry => if entry.2 == name then builder.leaveThrough [name] else builder
  | none => builder

def closeInBody (builder : Builder) (name : String) : Builder :=
  if name == "body" then { builder with stage := .afterBody }
  else if name == "html" then { builder with stage := .afterAll }
  else if name == "br" then (builder.enter "br").leave
  else if name == "p" then
    if builder.inScope ["button"] ["p"] then builder.leaveThrough ["p"]
    else (builder.enter "p").leave
  else if name == "li" then
    if builder.inScope ["ol","ul"] ["li"] then builder.leaveThrough ["li"] else builder
  else if isHeading name then
    let headings := ["h1","h2","h3","h4","h5","h6"]
    if builder.inScope [] headings then builder.leaveThrough headings else builder
  else if isTablePart name || name == "table" then
    if builder.open.any fun entry => entry.2 == name then builder.leaveThrough [name] else builder
  else if endsParagraph name || name == "button" then
    if builder.inScope [] [name] then builder.leaveThrough [name] else builder
  else builder.closeOther name

def isMetadata (name : String) : Bool :=
  ["base","basefont","bgsound","link","meta","title","noscript","noframes","style",
   "script"].contains name

def addWhole (builder : Builder) (parent : NodeId) (name : String) (content : List Char) : Builder :=
  let (id, builder) := builder.add parent (.element name)
  if content.isEmpty then builder else (builder.add id .text).2

def startHtml (builder : Builder) : Builder := { builder.enter "html" with stage := .beforeHead }

def startHead (builder : Builder) : Builder :=
  let inner := builder.enter "head"
  { inner with stage := .head, head := some inner.current }

def endHead (builder : Builder) : Builder := { builder.leave with stage := .afterHead }

def startBody (builder : Builder) : Builder := { builder.enter "body" with stage := .body }

def isLateEnd (name : String) : Bool := ["head","body","html","br"].contains name

def outermost (builder : Builder) : NodeId := (builder.open.getLast?.map (·.1)).getD root

inductive Step where
  | done (builder : Builder)
  | again (builder : Builder)

def metadata? : Mark → Option (String × List Char)
  | .opening name _ => if isMetadata name then some (name, []) else none
  | .filled name content => if isMetadata name then some (name, content) else none
  | _ => none

def isBlank : Mark → Bool
  | .text content => content.all Markup.isSpace
  | _ => false

/-- Marks before the head. Blanks do not count, and an end tag only if it ends something that must
have been opened. -/
def stepBefore (builder : Builder) (mark : Mark) (next : Builder → Builder) : Step :=
  match mark with
  | .doctype => .done builder
  | .closing name => if isLateEnd name then .again (next builder) else .done builder
  | mark => if isBlank mark then .done builder else .again (next builder)

def stepHead (builder : Builder) (mark : Mark) (parent : NodeId) (next : Builder → Builder) : Step :=
  match mark with
  | .doctype | .opening "html" _ | .opening "head" _ => .done builder
  | .comment => .done (builder.comment builder.current)
  | .closing name => if isLateEnd name then .again (next builder) else .done builder
  | .text content => if isBlank mark then .done (builder.addText content) else .again (next builder)
  | mark =>
    match metadata? mark with
    | some (name, content) => .done (builder.addWhole parent name content)
    | none => .again (next builder)

/-- Marks before the body. Text comes here in runs that are all blank or start with something
else. -/
def stepEarly (builder : Builder) (mark : Mark) : Step :=
  match builder.stage, mark with
  | .start, .comment | .beforeHtml, .comment => .done (builder.comment root)
  | .start, .doctype =>
    let added := (builder.add root .doctype).2
    .done { added with stage := .beforeHtml, hasDoctype := true }
  | .start, mark =>
    if isBlank mark then .done builder else .again { builder with stage := .beforeHtml }
  | .beforeHtml, .opening "html" _ => .done builder.startHtml
  | .beforeHtml, mark => builder.stepBefore mark startHtml
  | .beforeHead, .comment => .done (builder.comment builder.current)
  | .beforeHead, .opening "html" _ => .done builder
  | .beforeHead, .opening "head" _ => .done builder.startHead
  | .beforeHead, mark => builder.stepBefore mark startHead
  | .head, .closing "head" => .done builder.endHead
  | .head, mark => builder.stepHead mark builder.current endHead
  | _, .opening "body" _ => .done builder.startBody
  | _, .closing "head" => .done builder
  | _, mark => builder.stepHead mark (builder.head.getD root) startBody

def stepLate (builder : Builder) (mark : Mark) : Step :=
  match builder.stage, mark with
  | .afterBody, .comment => .done (builder.comment builder.outermost)
  | .afterAll, .comment => .done (builder.comment root)
  | .afterBody, .closing "html" => .done { builder with stage := .afterAll }
  | .body, .opening name selfClosing => .done (builder.openInBody name selfClosing)
  | .body, .closing name => .done (builder.closeInBody name)
  | .body, .filled name content =>
    let builder := if endsParagraph name then builder.closeParagraph else builder
    .done (builder.addWhole builder.current name content)
  | .body, .comment => .done (builder.comment builder.current)
  | _, .doctype => .done builder
  | _, .text content =>
    let visible := content.filter (· != '\x00')
    if visible.all Markup.isSpace || builder.stage == .body then .done (builder.addText visible)
    else .again { builder with stage := .body }
  | _, .opening "html" _ => .done builder
  | _, _ => .again { builder with stage := .body }

def isEarly : Stage → Bool
  | .start | .beforeHtml | .beforeHead | .head | .afterHead => true
  | _ => false

/-- Looks at a mark stage after stage. There are eight of them, and none is met twice. -/
def stepAll : Nat → Builder → Mark → Builder
  | 0, builder, _ => builder
  | fuel + 1, builder, mark =>
    let step := if isEarly builder.stage then builder.stepEarly mark else builder.stepLate mark
    match step with
    | .done builder => builder
    | .again builder => stepAll fuel builder mark

def step (builder : Builder) (mark : Mark) : Builder :=
  match mark with
  | .text content =>
    let blanks := content.takeWhile Markup.isSpace
    let others := content.dropWhile Markup.isSpace
    let builder := if blanks.isEmpty then builder else stepAll 9 builder (.text blanks)
    if others.isEmpty then builder else stepAll 9 builder (.text others)
  | mark => stepAll 9 builder mark

def finish (builder : Builder) : Builder :=
  if isEarly builder.stage then
    let builder := if builder.stage == .start || builder.stage == .beforeHtml then builder.startHtml
      else builder
    let builder := if builder.stage == .beforeHead then builder.startHead else builder
    let builder := if builder.stage == .head then builder.endHead else builder
    if builder.stage == .afterHead then builder.startBody else builder
  else builder

end Builder

def ofHtml (text : String) : Document := ((Markup.marks text).foldl Builder.step {}).finish.document

end Resumable.Document
