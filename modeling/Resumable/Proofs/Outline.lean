import Resumable.Scope.Building

/-! Lexical scoping as the language has it. A frame is what binds names: the program, the name of a function or
class expression, parameters, a body, a block, the cases of a switch, the head of a loop, what catches an exception.
An outline of a program lists its frames, with the scopes of the analysis that they are part of, and what is around
each use of a name and each scope. It goes where the analysis goes: not into the decorators of fields, nor, unless
they are exported below the top level, into enumerations, namespaces and interfaces. `arguments` is bound without
being declared, and is left out. -/
namespace Resumable

namespace Script
open Ident

/-! ### Declared names -/

def ownName (level : Level) (name : Option Ident) : List String :=
  if level == .loose then [] else name.toList.map Ident.name

/-- The names that a statement declares in the list that it is part of, apart from `var`. What is
declared for its type only binds nothing. -/
def Stmt.lexicalNames (level : Level) : Stmt → List String
  | .variableDecl kind slots _ =>
    if kind == .var then [] else (Pattern.namesOfAll slots).map name
  | .function literal => ownName level literal.head.name
  | .classDecl literal => ownName level literal.head.name
  | .imports locals _ => if level == .top then locals.map name else []
  | .enumeration id _ _ => ownName level (some id)
  | .exportDeclaration declaration _ => declaration.lexicalNames (if level == .top then .exported else .loose)
  | .exportDefault (.function literal) _ => literal.head.name.toList.map name
  | .exportDefault (.classDecl literal) _ => literal.head.name.toList.map name
  -- A statement with a label.
  | .compound [body] _ => body.lexicalNames .nested
  | _ => []

def lexicalNamesOfAll (level : Level) (statements : List Stmt) : List String :=
  statements.flatMap (Stmt.lexicalNames level)

mutual

/-- The names that `var` declares in a statement for the whole function around it. -/
def Stmt.varNames : Stmt → List String
  | .variableDecl kind slots _ =>
    if kind == .var then (Pattern.namesOfAll slots).map name else []
  | .block body _ => varNamesOfAll body
  | .loop parts _ => varNamesOfAll parts
  | .compound parts _ => varNamesOfAll parts
  | .case _ body _ => varNamesOfAll body
  | .handler _ body _ => body.varNames
  | .exportDeclaration declaration _ => declaration.varNames
  | _ => []

def varNamesOfAll : List Stmt → List String
  | [] => []
  | statement :: rest => statement.varNames ++ varNamesOfAll rest

end

def caseNames (parts : List Stmt) : List String :=
  parts.flatMap fun part => match part with
    | .case _ body _ => lexicalNamesOfAll .nested body
    | _ => []

def bodyNames (level : Level) (body : List Stmt) : List String := varNamesOfAll body ++ lexicalNamesOfAll level body

end Script

open Script

/-! ### Outlines -/

/-- A part of a program that binds names, by its number. `owner` is the scope of the analysis that
it is part of. -/
structure Frame where
  id : Nat
  owner : ScopeIndex
  names : List String
  deriving DecidableEq, Repr

inductive Construct where
  | program
  | function (literal : Func)
  | arrow (literal : Func)
  | classLiteral (literal : ClassLiteral)
  | member
  | loop

/-- A place in a program: the scope of the analysis, and the frames around it from the inside out. -/
structure Spot where
  scope : ScopeIndex
  frames : List Frame
  deriving DecidableEq, Repr

def Spot.binding (place : Spot) (name : String) : Option Frame :=
  place.frames.find? fun frame => frame.names.contains name

/-- A scope of the analysis, with the place where it is opened. The program is opened nowhere. -/
structure Opening where
  construct : Construct
  outside : Option Spot

/-- A name that is used, or `this`, with the part that it plays where it stands. -/
structure Use where
  name : Option String
  span : Span
  position : Position
  place : Spot
  deriving DecidableEq, Repr

structure Outline where
  /-- By the number of the scope that is opened. -/
  openings : List Opening := []
  /-- The place inside each frame, by the number of the frame. -/
  insides : List Spot := []
  uses : List Use := []

namespace Outline

def addUse (outline : Outline) (place : Spot) (position : Position) (name : Option String) (span : Span) : Outline :=
  { outline with uses := outline.uses ++ [{ name, span, position, place }] }

def enter (outline : Outline) (place : Spot) (names : List String) : Spot :=
  { place with frames := ⟨outline.insides.length,place.scope,names⟩ :: place.frames }

def addFrame (outline : Outline) (place : Spot) (names : List String) : Outline :=
  { outline with insides := outline.insides ++ [outline.enter place names] }

def addOpening (outline : Outline) (place : Spot) (construct : Construct) : Outline :=
  { outline with openings := outline.openings ++ [⟨construct,some place⟩] }

def inside (outline : Outline) (place : Spot) : Spot := { place with scope := outline.openings.length }

def addUses (outline : Outline) (place : Spot) (ids : List Ident) : Outline :=
  ids.foldl (fun outline id => outline.addUse place .plain (some id.name) id.span) outline

end Outline

mutual

/-- An expression in some position. What `new` calls, and a name that stands for its own property, are in
a position of their own only if nothing is around the name. -/
def outlineExpr (place : Spot) (position : Position) : Expr → Outline → Outline
  | .name id, outline => outline.addUse place position (some id.name) id.span
  | .target id, outline => outline.addUse place .assigned (some id.name) id.span
  | .tag id, outline => outline.addUse place .tag (some id.name) id.span
  | .thisValue span, outline => outline.addUse place .plain none span
  | .node .construct _ (callee :: given), outline =>
    outlineExprs place given (outlineExpr place .constructed callee outline)
  | .node (.property .shorthand _) _ [value], outline => outlineExpr place .shorthand value outline
  | .node _ _ parts, outline => outlineExprs place parts outline
  | .assign _ _ left right, outline => outlineExpr place .plain right (outlineExpr place .plain left outline)
  | .function literal, outline => outlineFunction place .loose literal outline
  | .arrow literal, outline => outlineArrow place literal outline
  | .classLiteral literal, outline => outlineClass place literal outline
  | _, outline => outline

def outlineExprs (place : Spot) : List Expr → Outline → Outline
  | [], outline => outline
  | value :: rest, outline => outlineExprs place rest (outlineExpr place .plain value outline)

def outlinePattern (place : Spot) : Pattern → Outline → Outline
  | .bind _, outline | .hole, outline => outline
  | .object fields, outline => outlinePatterns place fields outline
  | .field _ keyParts value, outline => outlinePattern place value (outlineExprs place keyParts outline)
  | .array elements, outline => outlinePatterns place elements outline
  | .rest pattern, outline => outlinePattern place pattern outline
  | .slot decorators pattern initial, outline =>
    outlineExprs place initial (outlinePattern place pattern (outlineExprs place decorators outline))

def outlinePatterns (place : Spot) : List Pattern → Outline → Outline
  | [], outline => outline
  | pattern :: others, outline => outlinePatterns place others (outlinePattern place pattern outline)

/-- A function. Its own name is bound inside it unless it is declared; its body is a frame of its own
that the parameters do not see. -/
def outlineFunction (place : Spot) (level : Level) : Func → Outline → Outline
  | .mk head params body, outline =>
    if !head.hasBody then outline
    else
      let own := if level == .loose then head.name.toList.map Ident.name else []
      let opened := outline.addOpening place (.function (.mk head params body))
      let named := opened.enter (outline.inside place) own
      let opened := opened.addFrame (outline.inside place) own
      let given := (Params.names params).map Ident.name
      let inside := opened.enter named given
      let walked := outlinePatterns inside params (opened.addFrame named given)
      outlineStmts (walked.enter inside (bodyNames .nested body)) .nested body
        (walked.addFrame inside (bodyNames .nested body))

def outlineArrow (place : Spot) : Func → Outline → Outline
  | .mk head params body, outline =>
    let opened := outline.addOpening place (.arrow (.mk head params body))
    let given := (Params.names params).map Ident.name
    let inside := opened.enter (outline.inside place) given
    let walked := outlinePatterns inside params (opened.addFrame (outline.inside place) given)
    outlineStmts (walked.enter inside (bodyNames .nested body)) .nested body
      (walked.addFrame inside (bodyNames .nested body))

/-- A class. Its decorators do not see its name, its base and its members do. -/
def outlineClass (place : Spot) : ClassLiteral → Outline → Outline
  | .mk head decorators base members, outline =>
    if head.isAmbient then outline
    else
      let own := head.name.toList.map Ident.name
      let opened := outline.addOpening place (.classLiteral (.mk head decorators base members))
      let decorated := outlineExprs (outline.inside place) decorators opened
      let inside := decorated.enter (outline.inside place) own
      outlineMembers inside members (outlineExprs inside base (decorated.addFrame (outline.inside place) own))

def outlineMembers (place : Spot) : List Member → Outline → Outline
  | [], outline => outline
  | member :: rest, outline => outlineMembers place rest (outlineMember place member outline)

def outlineMember (place : Spot) : Member → Outline → Outline
  | .method _ _ decorators _ keyParts literal _, outline =>
    outlineFunction place .loose literal (outlineExprs place keyParts (outlineExprs place decorators outline))
  | .field _ _ keyParts initial _, outline =>
    let before := outlineExprs place keyParts outline
    if initial.isEmpty then before
    else outlineExprs (before.inside place) initial (before.addOpening place .member)
  | .block body _, outline =>
    let opened := outline.addOpening place .member
    outlineStmts (opened.enter (outline.inside place) (bodyNames .nested body)) .nested body
      (opened.addFrame (outline.inside place) (bodyNames .nested body))
  | .signature, outline => outline

def outlineStmts (place : Spot) (level : Level) : List Stmt → Outline → Outline
  | [], outline => outline
  | statement :: rest, outline => outlineStmts place level rest (outlineStmt place level statement outline)

/-- The parts of a compound statement, each a block of its own unless it is the only one. The cases
of a switch share a block, which what they are chosen by does not see. -/
def outlineParts (place : Spot) (alone : Bool) : List Stmt → Outline → Outline
  | [], outline => outline
  | .case test body span :: rest, outline =>
    let names := caseNames (.case test body span :: rest)
    outlineStmts (outline.enter place names) .nested rest
      (outlineStmt (outline.enter place names) .nested (.case test body span) (outline.addFrame place names))
  | part :: rest, outline =>
    let names := if alone then [] else part.lexicalNames .nested
    outlineParts place alone rest (outlineStmt (outline.enter place names) .nested part (outline.addFrame place names))

def outlineStmt (place : Spot) (level : Level) : Stmt → Outline → Outline
  | .expression value _, outline => outlineExpr place .plain value outline
  | .block body _, outline =>
    outlineStmts (outline.enter place (lexicalNamesOfAll .nested body)) .nested body
      (outline.addFrame place (lexicalNamesOfAll .nested body))
  | .variableDecl _ slots _, outline => outlinePatterns place slots outline
  | .function literal, outline => outlineFunction place level literal outline
  | .classDecl literal, outline => outlineClass place literal outline
  | .returns value _, outline => outlineExprs place value outline
  | .loop parts _, outline =>
    let opened := outline.addOpening place .loop
    outlineStmts (opened.enter (outline.inside place) (lexicalNamesOfAll .nested parts)) .nested parts
      (opened.addFrame (outline.inside place) (lexicalNamesOfAll .nested parts))
  | .compound parts _, outline => outlineParts place (parts.length == 1) parts outline
  | .case test body _, outline => outlineStmts place .nested body (outlineExprs place test outline)
  | .handler pattern body _, outline =>
    let names := (Pattern.namesOfAll pattern).map Ident.name
    let inside := outline.enter place names
    outlineStmt inside .nested body (outlinePatterns inside pattern (outline.addFrame place names))
  | .exportNames locals _ _, outline => outline.addUses place locals
  | .exportDeclaration declaration _, outline =>
    outlineStmt place (if level == .top then .exported else .loose) declaration outline
  | .exportDefault value _, outline => outlineDefault place value outline
  | .enumeration _ initials _, outline => if level == .loose then outlineExprs place initials outline else outline
  | .typeOnly body _, outline => if level == .loose then outlineStmts place .nested body outline else outline
  | .ambient body _, outline => if level == .exported then outline else outlineStmts place .nested body outline
  | _, outline => outline

def outlineDefault (place : Spot) : Stmt → Outline → Outline
  | .function literal, outline => outlineFunction place .exported literal outline
  | .classDecl literal, outline => outlineClass place literal outline
  | .expression value _, outline => outlineExpr place .plain value outline
  | _, outline => outline

end

def Outline.start : Outline := { openings := [⟨.program,none⟩] }

def Spot.start : Spot := ⟨Scoping.root,[]⟩

def Script.Program.outline (program : Program) : Outline :=
  let names := bodyNames .top program.body
  outlineStmts (Outline.start.enter .start names) .top program.body (Outline.start.addFrame .start names)

def Outline.places (outline : Outline) : List Spot :=
  outline.uses.map Use.place ++ outline.openings.filterMap Opening.outside

end Resumable
