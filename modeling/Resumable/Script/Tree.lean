import Resumable.Number.Basic
import Resumable.Script.Span

/-! Scripts as trees. A tree keeps what scoping, hoisting and reading data need: names, function and
class literals, patterns, statements and plain values, each with its span. Types are checked when a
script is read and not kept, nor is what stands in them. -/
namespace Resumable.Script

inductive Key where
  | name (id : Ident)
  | privateName (id : Ident)
  | string (value : String) (span : Span)
  | number (span : Span)
  | computed (text : Option String) (span : Span)
  deriving DecidableEq, Repr

namespace Key

def span : Key → Span
  | name id | privateName id => id.span
  | string _ span | number span | computed _ span => span

def isComputed : Key → Bool
  | computed _ _ => true
  | _ => false

def text? : Key → Option String
  | name id | privateName id => some id.name
  | string value _ => some value
  | number _ => none
  | computed text _ => text

end Key

inductive PropertyKind where
  | shorthand
  | plain
  | method
  | accessor
  deriving DecidableEq, Repr

/-- The form of an expression whose parts are all expressions, in the order in which they are
evaluated or written. -/
inductive Shape where
  | group
  | chain
  | member (property : Ident)
  | privateMember (name : Ident)
  /-- What `in` looks for in an object. -/
  | privateName (name : Ident)
  | index
  | call
  | construct
  | load
  | template
  | tagged
  | array
  | object
  | property (kind : PropertyKind) (key : Key)
  | spread
  | unary (operator : String)
  | update
  | binary (operator : String)
  | conditional
  | sequence
  | await
  | yield
  | typed
  | element
  | target
  deriving DecidableEq, Repr

inductive VariableKind where
  | var
  | let
  | const
  | using
  deriving DecidableEq, Repr

/-- What a function literal is, apart from its parameters and its body. The span of a method starts
at its parameters or type parameters. -/
structure FunctionHead where
  span : Span
  name : Option Ident := none
  isAsync : Bool := false
  isGenerator : Bool := false
  paramsStart : Nat
  hasBody : Bool := true
  deriving DecidableEq, Repr

structure ClassHead where
  span : Span
  name : Option Ident := none
  isAmbient : Bool := false
  deriving DecidableEq, Repr

inductive MethodKind where
  | constructor
  | method
  | accessor
  deriving DecidableEq, Repr

/-! A list stands for what may be missing: the key in brackets, the initial value, the base of a
class, the test of a case. -/

mutual

inductive Expr where
  | name (id : Ident)
  | target (id : Ident)
  | tag (id : Ident)
  | thisValue (span : Span)
  | superValue (span : Span)
  | number (value : Number) (span : Span)
  | string (value : String) (span : Span)
  | boolean (value : Bool) (span : Span)
  | null (span : Span)
  | atom (span : Span)
  | hole (span : Span)
  | node (shape : Shape) (span : Span) (parts : List Expr)
  /-- `plain` if the operator is `=`. -/
  | assign (plain : Bool) (span : Span) (left right : Expr)
  | function (literal : Func)
  | arrow (literal : Func)
  | classLiteral (literal : ClassLiteral)

inductive Pattern where
  | bind (id : Ident)
  | object (fields : List Pattern)
  | field (key : Key) (keyParts : List Expr) (value : Pattern)
  | array (elements : List Pattern)
  | hole
  | rest (pattern : Pattern)
  | slot (decorators : List Expr) (pattern : Pattern) (initial : List Expr)

inductive Func where
  | mk (head : FunctionHead) (params : List Pattern) (body : List Stmt)

inductive ClassLiteral where
  | mk (head : ClassHead) (decorators base : List Expr) (members : List Member)

inductive Member where
  | method (kind : MethodKind) (isStatic : Bool) (decorators : List Expr) (key : Key)
    (keyParts : List Expr) (literal : Func) (span : Span)
  | field (decorators : List Expr) (key : Key) (keyParts : List Expr) (initial : List Expr) (span : Span)
  | block (body : List Stmt) (span : Span)
  | signature

inductive Stmt where
  | expression (value : Expr) (span : Span)
  | block (body : List Stmt) (span : Span)
  | variableDecl (kind : VariableKind) (slots : List Pattern) (span : Span)
  | function (literal : Func)
  | classDecl (literal : ClassLiteral)
  | returns (value : List Expr) (span : Span)
  | loop (parts : List Stmt) (span : Span)
  | compound (parts : List Stmt) (span : Span)
  | case (test : List Expr) (body : List Stmt) (span : Span)
  | handler (pattern : List Pattern) (body : Stmt) (span : Span)
  | imports (locals : List Ident) (span : Span)
  | exportNames (locals exported : List Ident) (span : Span)
  | exportDeclaration (declaration : Stmt) (span : Span)
  | exportDefault (value : Stmt) (span : Span)
  | reexport (exported : List Ident) (span : Span)
  | enumeration (id : Ident) (initials : List Expr) (span : Span)
  /-- A namespace with its statements, an interface with what it extends and its keys in brackets, or an
  alias with what it stands for. -/
  | typeOnly (body : List Stmt) (span : Span)
  | ambient (body : List Stmt) (span : Span)

end

structure Program where
  span : Span
  directives : List String := []
  body : List Stmt

def Func.head : Func → FunctionHead
  | .mk head _ _ => head

def Func.params : Func → List Pattern
  | .mk _ params _ => params

def Func.body : Func → List Stmt
  | .mk _ _ body => body

def ClassLiteral.head : ClassLiteral → ClassHead
  | .mk head _ _ _ => head

def Expr.span : Expr → Span
  | .name id | .target id | .tag id => id.span
  | .thisValue span | .superValue span | .number _ span | .string _ span | .boolean _ span
  | .null span | .atom span | .hole span | .node _ span _ | .assign _ span _ _ => span
  | .function literal | .arrow literal => literal.head.span
  | .classLiteral literal => literal.head.span

def Stmt.span : Stmt → Span
  | .expression _ span | .block _ span | .variableDecl _ _ span | .returns _ span | .loop _ span
  | .compound _ span | .case _ _ span | .handler _ _ span | .imports _ span
  | .exportNames _ _ span | .exportDeclaration _ span | .exportDefault _ span | .reexport _ span
  | .enumeration _ _ span | .typeOnly _ span | .ambient _ span => span
  | .function literal => literal.head.span
  | .classDecl literal => literal.head.span

def Expr.ungrouped : Expr → Expr
  | .node .group _ [inner] => inner.ungrouped
  | other => other

end Resumable.Script
