import Resumable.Script.Token
import Resumable.Script.Tree

/-! Reading a script token by token. A reader either finishes or fails at a fault; either way it
gives back the state it got to, with the faults that did not stop it. -/
namespace Resumable.Script

inductive Goal where
  | script
  | module
  | wrapped
  | either
  deriving DecidableEq, Repr

structure Dialect where
  types : Bool
  elements : Bool
  goal : Goal
  isAmbient : Bool := false
  deriving DecidableEq, Repr

def Dialect.isModule (dialect : Dialect) : Bool := dialect.goal == .module

structure Context where
  dialect : Dialect
  operatorIn : Bool := true
  await : Bool
  yield : Bool := false
  inFunction : Bool
  inDecorator : Bool := false
  isAmbient : Bool
  conditionalTypes : Bool := true
  deriving DecidableEq, Repr

structure State where
  token : Token
  rest : List Char
  previousStop : Nat := 0
  tokenFaults : List Fault := []
  faults : List Fault := []
  /-- Where properties start that only a pattern may hold, unless one has taken them. -/
  patternOnly : List Nat := []
  notArrow : List Nat := []
  moduleSyntax : Bool := false
  deriving Repr

inductive Outcome (α : Type) where
  | done (value : α) (state : State)
  | failed (fault : Fault) (state : State)
  deriving Repr

def Parse (α : Type) : Type := Context → State → Outcome α

namespace Parse

instance : Monad Parse where
  pure value := fun _ state => .done value state
  bind first next := fun context state =>
    match first context state with
    | .done value state => next value context state
    | .failed fault state => .failed fault state

def context : Parse Context := fun context state => .done context state
def dialect : Parse Dialect := fun context state => .done context.dialect state
def state : Parse State := fun _ state => .done state state
def modify (change : State → State) : Parse Unit := fun _ state => .done () (change state)
def token : Parse Token := fun _ state => .done state.token state

def within {α : Type} (change : Context → Context) (reader : Parse α) : Parse α :=
  fun context state => reader (change context) state

def failAt {α : Type} (offset : Nat) (reason : Reason) : Parse α :=
  fun _ state => .failed ⟨offset,reason⟩ state

def report (offset : Nat) (reason : Reason) : Parse Unit :=
  modify fun state => { state with faults := ⟨offset,reason⟩ :: state.faults }

/-- Fails at the current token. If the token is no token, or there is none, the fault is the one
that was found there. -/
def unexpected {α : Type} : Parse α := fun _ state =>
  match state.token.kind, state.tokenFaults with
  | .invalid, fault :: earlier | .done, fault :: earlier =>
    .failed fault { state with tokenFaults := earlier }
  | _, _ => .failed ⟨state.token.span.start,.unexpected⟩ state

def install (reading : Reading) (previousStop : Nat) (state : State) : State :=
  { state with
    token := reading.token
    rest := reading.rest
    previousStop
    tokenFaults := reading.faults.reverse ++ state.tokenFaults }

def advance : Parse Unit := fun context state =>
  let reading := readToken (!context.dialect.isModule) state.token.span.stop state.rest
  .done () (install reading state.token.span.stop state)

def advanceChild : Parse Unit :=
  modify fun state =>
    install (readJsxChild state.token.span.stop state.rest) state.token.span.stop state

def advanceValue : Parse Unit := fun context state =>
  let reading := readJsxValue (!context.dialect.isModule) state.token.span.stop state.rest
  .done () (install reading state.token.span.stop state)

def reread (reading : Reading) : Parse Unit := modify fun state => install reading state.previousStop state

def sees (text : String) : Parse Bool := return (← token).is text
def seesAny (texts : List String) : Parse Bool := return (← token).isAny texts
def seesKind (kind : Kind) : Parse Bool := return (← token).kind == kind

def eat (text : String) : Parse Bool := do
  if (← token).is text then
    advance
    return true
  else return false

def require (text : String) : Parse Unit := do
  let token ← token
  if !token.is text then failAt token.span.start (.expected text)

def expect (text : String) : Parse Unit := do
  require text
  advance

def start : Parse Nat := return (← token).span.start

def spanFrom (start : Nat) : Parse Span := return ⟨start,(← state).previousStop⟩

def look (reader : Parse Bool) : Parse Bool := fun context state =>
  match reader context state with
  | .done answer _ => .done answer state
  | .failed _ _ => .done false state

def attempt {α : Type} (reader : Parse α) : Parse (Option α) := fun context state =>
  match reader context state with
  | .done value state => .done (some value) state
  | .failed _ _ => .done none state

def atStatementEnd : Parse Bool := do
  let token ← token
  return token.isAny [";","\x7d"] || token.kind == .done || token.newline

def endStatement : Parse Unit := do
  if !(← eat ";") && !(← atStatementEnd) then
    failAt (← state).previousStop .missingSemicolon

inductive Step (α β : Type) where
  | more (value : α)
  | stop (value : β)

def iterate {α β : Type} (step : α → Parse (Step α β)) : Nat → α → Parse β
  | 0, _ => unexpected
  | fuel + 1, value => do
    match ← step value with
    | .more value => iterate step fuel value
    | .stop value => pure value

/-- Repeats a step that takes at least one token unless it is the last one. -/
def loop {α β : Type} (step : α → Parse (Step α β)) (value : α) : Parse β := fun context state =>
  iterate step (state.rest.length + 8) value context state

def separatedStep {α : Type} (close separator : String) (item : Parse α) (items : List α) :
    Parse (Step (List α) (List α × Option Nat)) := do
  let token ← token
  if token.is close then return .stop (items.reverse, none)
  if !token.is separator then failAt token.span.start (.expected close)
  advance
  if ← sees close then return .stop (items.reverse, some token.span.start)
  let next ← item
  return .more (next :: items)

/-- What stands between separators up to a closing mark, and where the separator in front of that
mark starts, if there is one. The closing mark is not taken. -/
def separated {α : Type} (close separator : String) (item : Parse α) :
    Parse (List α × Option Nat) := do
  let token ← token
  if token.is close || token.kind == .done then return ([], none)
  let first ← item
  loop (separatedStep close separator item) [first]

def enclosed {α : Type} (opening close separator : String) (item : Parse α) : Parse (List α) := do
  expect opening
  let (items, _) ← separated close separator item
  expect close
  return items

def upTo {α : Type} (close : String) (item : Parse α) : Parse (List α) :=
  loop (fun items : List α => do
    if ← sees close then return .stop items.reverse
    let next ← item
    return .more (next :: items)) []

end Parse

end Resumable.Script
