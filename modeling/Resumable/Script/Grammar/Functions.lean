import Resumable.Script.Grammar.Types

/-! Patterns, parameters and functions. -/
namespace Resumable.Script.Grammar

open Parse

def withRest (close : String) (item rest : Parse Pattern) : Parse (List Pattern) :=
  loop (fun (items, restStart) => do
    let token ← token
    if token.is close then return .stop items.reverse
    if !items.isEmpty then
      if !token.is "," then failAt token.span.start (.expected close)
      advance
      if ← sees close then
        if restStart.isSome then report token.span.start (.misplaced "A comma")
        return .stop items.reverse
      if let some offset := restStart then report offset (.misplaced "A rest element")
    if ← sees "..." then
      let offset ← start
      advance
      return .more (.rest (← rest) :: items, some offset)
    return .more ((← item) :: items, none)) (([] : List Pattern), (none : Option Nat))

def initialValue (r : Rules) : Parse (List Expr) := do
  if ← eat "=" then
    return [← within (fun c => { c with operatorIn := true }) (r.assignment true)]
  return []

def slot (decorators : List Expr) (pattern : Pattern) (initial : List Expr) : Pattern :=
  if decorators.isEmpty && initial.isEmpty then pattern else .slot decorators pattern initial

def patternElement (r : Rules) : Parse Pattern := do
  let pattern ← r.pattern
  if (← dialect).types then discard (eat "?")
  typeAnnotation r
  return slot [] pattern (← initialValue r)

def restPattern (r : Rules) : Parse Pattern := do
  let pattern ← r.pattern
  if (← dialect).types then discard (eat "?")
  typeAnnotation r
  if ← sees "=" then
    report (← start) (.misplaced "An initial value")
    discard (initialValue r)
  return pattern

def patternField (r : Rules) : Parse Pattern := do
  let token ← token
  let (key, keyParts) ← propertyName r
  if token.isName && !(← sees ":") then
    checkName (← context).await (← context).yield token
    return .field key [] (slot [] (.bind ⟨token.text,token.span⟩) (← initialValue r))
  expect ":"
  return .field key keyParts (← patternElement r)

def arrayElement (r : Rules) : Parse Pattern := do
  if ← sees "," then return .hole else patternElement r

def pattern (r : Rules) : Parse Pattern := do
  if ← eat "\x7b" then
    let fields ← withRest "\x7d" (patternField r) (restPattern r)
    expect "\x7d"
    return .object fields
  if ← eat "[" then
    let elements ← withRest "]" (arrayElement r) (restPattern r)
    expect "]"
    return .array elements
  return .bind (← boundName)

def decorators (r : Rules) : Parse (List Expr) :=
  loop (fun found : List Expr => do
    if ← eat "@" then
      let decorator ← within (fun c => { c with inDecorator := true }) r.leftSide
      return .more (decorator :: found)
    return .stop found.reverse) []

def parameterModifiers : Parse Unit :=
  loop (fun _ : Unit => do
    if ← seesModifier then
      advance
      return .more ()
    return .stop ()) ()

def parameter (r : Rules) : Parse Pattern := do
  let decorators ← decorators r
  if (← dialect).types then parameterModifiers
  let pattern ← r.pattern
  if (← dialect).types then discard (eat "?")
  typeAnnotation r
  return .slot decorators pattern (← initialValue r)

def thisParameter (r : Rules) : Parse Bool := do
  if (← dialect).types && (← sees "this") then
    advance
    typeAnnotation r
    if !(← sees ")") then expect ","
    return true
  return false

def parameters (r : Rules) : Parse (List Pattern) := do
  expect "("
  discard (thisParameter r)
  let params ← withRest ")" (parameter r) (restPattern r)
  expect ")"
  return params

def directive? : Stmt → Option String
  | .expression (.string value _) _ => some value
  | _ => none

def statementsStep (r : Rules) (braced : Bool) (found : List Stmt) :
    Parse (Step (List Stmt) (List Stmt)) := do
  let token ← token
  if token.kind == .done || (braced && token.is "\x7d") then return .stop found.reverse
  return .more ((← r.statement false) :: found)

def statements (r : Rules) (braced : Bool) : Parse (List String × List Stmt) := do
  let all ← loop (statementsStep r braced) []
  let directives := (all.takeWhile fun statement => (directive? statement).isSome)
  return (directives.filterMap directive?, all.drop directives.length)

def functionBody (r : Rules) : Parse (List Stmt) := do
  expect "\x7b"
  let (_, body) ← within (fun c => { c with inFunction := true }) (statements r true)
  expect "\x7d"
  return body

inductive FunctionRole where
  | declaration
  | defaultExport
  | expression
  | member
  | property
  deriving DecidableEq, Repr

def functionRest (r : Rules) (first : Nat) (name : Option Ident) (isAsync isGenerator : Bool)
    (role : FunctionRole) : Parse Func := do
  let (paramsStart, params, body) ←
    within (fun c => { c with operatorIn := true, await := isAsync, yield := isGenerator }) do
      typeParameters r
      let paramsStart ← start
      let params ← parameters r
      returnAnnotation r
      if ← sees "\x7b" then return (paramsStart, params, some (← functionBody r))
      return (paramsStart, params, none)
  if body.isNone then
    if !(← dialect).types || role == .property then failAt first (.expected "a function body")
    endStatement
  return .mk
    { span := ← spanFrom first
      name, isAsync, isGenerator, paramsStart
      hasBody := body.isSome }
    params (body.getD [])

def functionName (role : FunctionRole) (isAsync isGenerator : Bool) : Parse (Option Ident) := do
  let token ← token
  if token.isName then
    let context ← context
    if role == .expression then checkName isAsync isGenerator token
    else checkName context.await context.yield token
    advance
    return some ⟨token.text,token.span⟩
  if role == .declaration then
    if token.is "(" then report token.span.start (.expected "a function name")
    else if token.isReserved then failAt token.span.start (.expected "a function name")
  return none

def functionLiteral (r : Rules) (first : Nat) (isAsync : Bool) (role : FunctionRole) :
    Parse Func := do
  expect "function"
  let isGenerator ← eat "*"
  let name ← functionName role isAsync isGenerator
  functionRest r first name isAsync isGenerator role

def methodLiteral (r : Rules) (isAsync isGenerator : Bool) (role : FunctionRole) : Parse Func := do
  functionRest r (← start) none isAsync isGenerator role

def checkAccessor (isGetter : Bool) (literal : Func) : Parse Unit := do
  let right := match literal.params with
    | [] => isGetter
    | [.rest _] => false
    | [_] => !isGetter
    | _ => false
  if !right then report literal.head.paramsStart (.misplaced "A parameter")

def arrowBody (r : Rules) (first paramsStart : Nat) (isAsync returnType : Bool)
    (params : List Pattern) : Parse Expr := do
  let body ← within (fun c => { c with await := isAsync, yield := false }) do
    if ← sees "\x7b" then functionBody r
    else
      let value ← r.assignment returnType
      return [.expression value value.span]
  return .arrow (.mk { span := ← spanFrom first, isAsync, paramsStart } params body)

def arrowMark : Parse Unit := do
  let token ← token
  if token.is "=>" && token.newline then report token.span.start (.misplaced "A line break")
  expect "=>"

/-- An arrow function up to its arrow: where it starts, whether it is asynchronous, its parameters
and where they start, and whether it has a return type. -/
def arrowHead (r : Rules) : Parse (Nat × Bool × Nat × List Pattern × Bool) := do
  let first ← start
  let isAsync ← eat "async"
  let awaits := (← context).await || isAsync
  let (paramsStart, params, typed) ← within (fun c => { c with await := awaits }) do
    typeParameters r
    let paramsStart ← start
    expect "("
    let offset ← start
    if ← thisParameter r then report offset (.misplaced "this")
    let params ← withRest ")" (parameter r) (restPattern r)
    expect ")"
    let typed ← (do
      if (← dialect).types && (← sees ":") then
        returnAnnotation r
        return true
      return false)
    return (paramsStart, params, typed)
  arrowMark
  return (first, isAsync, paramsStart, params, typed)

end Resumable.Script.Grammar
