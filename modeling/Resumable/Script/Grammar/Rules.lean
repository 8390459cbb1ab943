import Resumable.Script.Grammar.State

/-! The rules of the grammar that other rules lead back to, and readers for names that all share. -/
namespace Resumable.Script

/-- The rules through which the grammar is recursive. Every other rule is a function of these. -/
structure Rules where
  /-- A statement; `single` if it is the only one that belongs to another statement. -/
  statement : (single : Bool) → Parse Stmt
  /-- An expression without a comma; `returnType` if an arrow function in it may have one. -/
  assignment : (returnType : Bool) → Parse Expr
  /-- An expression of operators that bind tighter than the given strength. -/
  operators : (strength : Nat) → Parse Expr
  unary : Parse Expr
  primary : Parse Expr
  leftSide : Parse Expr
  pattern : Parse Pattern
  type : Parse Unit
  typeOperator : Parse Unit
  /-- An element; `child` if it stands within another one. -/
  element : (child : Bool) → Parse Expr

namespace Rules

def exhausted : Rules where
  statement _ := Parse.unexpected
  assignment _ := Parse.unexpected
  operators _ := Parse.unexpected
  unary := Parse.unexpected
  primary := Parse.unexpected
  leftSide := Parse.unexpected
  pattern := Parse.unexpected
  type := Parse.unexpected
  typeOperator := Parse.unexpected
  element _ := Parse.unexpected

end Rules

namespace Parse

def checkName (awaits yields : Bool) (token : Token) : Parse Unit := do
  if awaits && token.is "await" then report token.span.start (.misplaced "await")
  if yields && token.is "yield" then report token.span.start (.misplaced "yield")

def boundName : Parse Ident := do
  let token ← token
  if !token.isName then unexpected
  let context ← context
  checkName context.await context.yield token
  advance
  return ⟨token.text,token.span⟩

def usedName : Parse Ident := boundName

def anyWord : Parse Ident := do
  let token ← token
  if token.kind != .word then unexpected
  advance
  return ⟨token.text,token.span⟩

def nextIs (test : Token → Bool) : Parse Bool :=
  look do
    advance
    return test (← token)

end Parse

def Token.isPropertyName (token : Token) : Bool :=
  match token.kind with
  | .word | .string | .number | .bigint | .privateName => true
  | _ => token.is "["

def modifierWords : List String :=
  ["abstract","accessor","async","const","declare","in","out","public","private",
   "protected","override","readonly","static"]

def Token.followsModifier (token : Token) : Bool := token.isPropertyName || token.isAny ["*","...","\x7b"]

namespace Parse

/-- Whether the current word is a modifier. All but `static` stand on the line of what they
belong to. -/
def seesModifier : Parse Bool := do
  let token ← token
  if !token.isAny modifierWords then return false
  if token.is "const" then nextIs fun next => next.is "enum"
  else if token.is "static" then nextIs Token.followsModifier
  else nextIs fun next => !next.newline && next.followsModifier

def seesAccessorWord (word : String) : Parse Bool := do
  if ← sees word then nextIs Token.followsModifier else return false

end Parse

end Resumable.Script
