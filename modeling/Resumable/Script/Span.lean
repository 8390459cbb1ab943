/-! Places in a script, in bytes from its start, and what can be wrong with one. -/
namespace Resumable.Script

structure Span where
  start : Nat
  stop : Nat
  deriving DecidableEq, Repr, Inhabited

namespace Span

def holds (outer inner : Span) : Bool := outer.start ≤ inner.start && inner.stop ≤ outer.stop

end Span

structure Ident where
  name : String
  span : Span
  deriving DecidableEq, Repr, Inhabited

inductive Reason where
  | unexpected
  | expected (what : String)
  | missingSemicolon
  | unterminated (what : String)
  | invalidCharacter
  | invalidEscape
  | misplaced (what : String)
  deriving DecidableEq, Repr

structure Fault where
  offset : Nat
  reason : Reason
  deriving DecidableEq, Repr

def Reason.message : Reason → String
  | unexpected => "Unexpected token"
  | expected what => "Expected " ++ what
  | missingSemicolon => "Expected a semicolon or a line break"
  | unterminated what => "Unterminated " ++ what
  | invalidCharacter => "Invalid character"
  | invalidEscape => "Invalid escape sequence"
  | misplaced what => what ++ " is not allowed here"

end Resumable.Script
