import Resumable.Regular.Sets

/-! Regular expressions and the texts in which one occurs. Only occurrence is asked for, so greedy
and lazy repetition are the same thing and groups keep nothing. -/
namespace Resumable.Regular

inductive Assertion where
  | textStart
  | textEnd
  | lineStart (returns : Bool)
  | lineEnd (returns : Bool)
  | boundary (inWord : CharClass)
  | notBoundary (inWord : CharClass)
  | wordStart (inWord : CharClass)
  | wordEnd (inWord : CharClass)
  | wordStartHalf (inWord : CharClass)
  | wordEndHalf (inWord : CharClass)
  deriving DecidableEq, Repr

inductive Expr where
  | empty
  | one (members : CharSet)
  | asserts (condition : Assertion)
  | sequence (first second : Expr)
  | either (left right : Expr)
  | times (least : Nat) (most : Option Nat) (body : Expr)
  deriving DecidableEq, Repr

structure Place where
  before : List Char
  after : List Char
  deriving DecidableEq, Repr

def Assertion.holds (place : Place) : Assertion → Bool
  | textStart => place.before.isEmpty
  | textEnd => place.after.isEmpty
  | lineStart false => place.before.isEmpty || place.before.head? == some '\n'
  | lineStart true =>
    place.before.isEmpty || place.before.head? == some '\n' ||
      (place.before.head? == some '\r' && place.after.head? != some '\n')
  | lineEnd false => place.after.isEmpty || place.after.head? == some '\n'
  | lineEnd true =>
    place.after.isEmpty || place.after.head? == some '\r' ||
      (place.after.head? == some '\n' && place.before.head? != some '\r')
  | boundary inWord => place.before.head?.any inWord.holds != place.after.head?.any inWord.holds
  | notBoundary inWord => place.before.head?.any inWord.holds == place.after.head?.any inWord.holds
  | wordStart inWord => !place.before.head?.any inWord.holds && place.after.head?.any inWord.holds
  | wordEnd inWord => place.before.head?.any inWord.holds && !place.after.head?.any inWord.holds
  | wordStartHalf inWord => !place.before.head?.any inWord.holds
  | wordEndHalf inWord => !place.after.head?.any inWord.holds

def exactly (step : Place → List Place) : Nat → List Place → List Place
  | 0, places => places
  | count + 1, places => exactly step count (places.flatMap step).eraseDups

def atMost (step : Place → List Place) : Nat → List Place → List Place
  | 0, places => places
  | count + 1, places => atMost step count (places ++ places.flatMap step).eraseDups

/-- The places where an occurrence that starts at a place can end. More repetitions than there are
characters left, and one more, reach no other places. -/
def Expr.ends : Expr → Place → List Place
  | empty, place => [place]
  | one members, place =>
    match place.after with
    | c :: rest => if members.holds c then [⟨c :: place.before,rest⟩] else []
    | [] => []
  | asserts condition, place => if condition.holds place then [place] else []
  | sequence first second, place => ((first.ends place).flatMap second.ends).eraseDups
  | either left right, place => (left.ends place ++ right.ends place).eraseDups
  | times least most body, place =>
    let enough := place.after.length + 1
    let start := exactly body.ends (min least enough) [place]
    match most with
    | none => atMost body.ends enough start
    | some most => atMost body.ends (min (most - least) enough) start

def Expr.occursFrom (expr : Expr) (before : List Char) : List Char → Bool
  | [] => !(expr.ends ⟨before,[]⟩).isEmpty
  | c :: rest => !(expr.ends ⟨before,c :: rest⟩).isEmpty || expr.occursFrom (c :: before) rest

def Expr.occursIn (expr : Expr) (text : String) : Bool := expr.occursFrom [] text.toList

end Resumable.Regular
