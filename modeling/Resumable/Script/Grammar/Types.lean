import Resumable.Script.Grammar.Rules

/-! Types. They are read for where they end; of an interface what it extends and its keys in brackets are kept. -/
namespace Resumable.Script.Grammar

open Parse

def splitOpeningAngle : Parse Unit := do
  let token ← token
  if token.isAny ["<<","<<=","<="] then
    let rest ← (return (← state).rest : Parse (List Char))
    reread
      { token := { token with text := "<", span := ⟨token.span.start,token.span.start + 1⟩ }
        rest := token.text.toList.drop 1 ++ rest }

def angleMarks : List String := [">>>=",">>>",">>=",">>",">="]

def longAngle (rest : List Char) : String :=
  (angleMarks.find? fun mark => mark.toList.isPrefixOf ('>' :: rest)).getD ">"

def joinClosingAngle : Parse Unit := do
  let token ← token
  if token.is ">" then
    let rest ← (return (← state).rest : Parse (List Char))
    let mark := longAngle rest
    let stop := token.span.start + mark.length
    reread
      { token := { token with text := mark, span := ⟨token.span.start,stop⟩ }
        rest := rest.drop (mark.length - 1) }

def typeArguments (r : Rules) : Parse Unit := do
  if !(← token).newline then
    if ← seesAny ["<","<<","<<=","<="] then
      splitOpeningAngle
      discard (enclosed "<" ">" "," r.type)

/-- A name with dots. What is used by it is its first part. -/
def dottedName : Parse Ident := do
  let first ← anyWord
  loop (fun _ : Unit => do
    if ← eat "." then
      discard anyWord
      return .more ()
    return .stop ()) ()
  return first

def typeReference (r : Rules) : Parse Ident := do
  let name ← dottedName
  typeArguments r
  return name

def typeAnnotation (r : Rules) : Parse Unit := do
  if (← dialect).types then
    if ← eat ":" then r.type

def typeParameter (r : Rules) : Parse Unit := do
  loop (fun _ : Unit => do
    if ← seesAny ["const","in","out"] then
      if ← nextIs fun next => next.kind == .word && !next.is "extends" then
        advance
        return .more ()
    return .stop ()) ()
  discard boundName
  if ← eat "extends" then r.type
  if ← eat "=" then r.type

def typeParameters (r : Rules) : Parse Unit := do
  if (← dialect).types then
    if ← sees "<" then discard (enclosed "<" ">" "," (typeParameter r))

def returnType (r : Rules) : Parse Unit := do
  let asserted ← look do
    let token ← token
    if !token.isName then return false
    advance
    let next ← Parse.token
    return next.is "is" && !next.newline
  if asserted then
    advance
    advance
    r.type
  else r.type

def returnAnnotation (r : Rules) : Parse Unit := do
  if (← dialect).types then
    if ← eat ":" then returnType r

def typedParameter (r : Rules) : Parse Unit := do
  discard (eat "...")
  if ← sees "this" then advance else discard r.pattern
  discard (eat "?")
  typeAnnotation r
  if ← eat "=" then discard (r.assignment true)

def typedParameters (r : Rules) : Parse Unit := discard (enclosed "(" ")" "," (typedParameter r))

def functionType (r : Rules) : Parse Unit := do
  discard (eat "abstract")
  discard (eat "new")
  typeParameters r
  typedParameters r
  expect "=>"
  returnType r

def opensFunctionType (r : Rules) : Parse Bool :=
  look do
    advance
    if ← seesAny [")","..."] then return true
    let token ← token
    if token.isName || token.is "this" then advance
    else if token.isAny ["[","\x7b"] then discard r.pattern
    else return false
    if ← seesAny [":",",","?","="] then return true
    if ← eat ")" then sees "=>" else return false

def startsFunctionType (r : Rules) : Parse Bool := do
  if ← seesAny ["<","new"] then return true
  if ← sees "(" then opensFunctionType r
  else if ← sees "abstract" then nextIs fun next => next.is "new"
  else return false

def endTypeMember : Parse Unit := do
  if !(← eat ",") then endStatement

def computedKey (r : Rules) : Parse Expr := do
  expect "["
  let key ← within (fun c => { c with operatorIn := true }) (r.assignment true)
  expect "]"
  return key

def propertyName (r : Rules) : Parse (Key × List Expr) := do
  let token ← token
  match token.kind with
  | .word =>
    advance
    return (.name ⟨token.text,token.span⟩, [])
  | .string =>
    advance
    return (.string token.text token.span, [])
  | .number | .bigint =>
    advance
    return (.number token.span, [])
  | _ =>
    if token.is "[" then
      let key ← computedKey r
      let text := match key with
        | .string value _ => some value
        | _ => none
      return (.computed text key.span, [key])
    else unexpected

def opensIndexSignature : Parse Bool := do
  if !(← sees "[") then return false
  look do
    advance
    if ← seesAny ["...","]"] then return true
    if !(← token).isName then return false
    advance
    if ← seesAny [":",","] then return true
    if !(← eat "?") then return false
    seesAny [":",",","]"]

def indexSignature (r : Rules) : Parse Unit := do
  discard (enclosed "[" "]" "," (typedParameter r))
  typeAnnotation r

def typeMember (r : Rules) : Parse (List Expr) := do
  let callable ← seesAny ["(","<"]
  let constructs ← (do
    if ← sees "new" then nextIs fun next => next.isAny ["(","<"] else return false)
  if callable || constructs then
    discard (eat "new")
    typeParameters r
    typedParameters r
    returnAnnotation r
    endTypeMember
    return []
  else
    if ← seesModifier then advance
    if ← opensIndexSignature then
      indexSignature r
      endTypeMember
      return []
    else
      if (← seesAccessorWord "get") || (← seesAccessorWord "set") then advance
      let (_, keyParts) ← propertyName r
      discard (eat "?")
      if ← seesAny ["(","<"] then
        typeParameters r
        typedParameters r
        returnAnnotation r
      else typeAnnotation r
      endTypeMember
      return keyParts

def typeMembers (r : Rules) : Parse (List Expr) := do
  expect "\x7b"
  let keys ← upTo "\x7d" (typeMember r)
  expect "\x7d"
  return keys.flatten

def opensMappedType : Parse Bool :=
  look do
    advance
    if ← seesAny ["+","-"] then
      advance
      return ← sees "readonly"
    if ← sees "readonly" then advance
    if !(← eat "[") then return false
    if (← token).kind != .word then return false
    advance
    sees "in"

def mappedMark (word : String) : Parse Unit := do
  if ← seesAny ["+","-"] then
    advance
    expect word
  else discard (eat word)

def mappedType (r : Rules) : Parse Unit := do
  expect "\x7b"
  mappedMark "readonly"
  expect "["
  discard anyWord
  expect "in"
  r.type
  if ← eat "as" then r.type
  expect "]"
  mappedMark "?"
  if ← eat ":" then r.type
  discard (eat ";")
  discard (eat ",")
  expect "\x7d"

def tupleElement (r : Rules) : Parse Unit := do
  discard (eat "...")
  let named ← look do
    if (← token).kind != .word then return false
    advance
    if ← eat "?" then sees ":" else sees ":"
  if named then
    advance
    discard (eat "?")
    expect ":"
  r.type
  discard (eat "?")

def resumeTemplate : Parse Unit := do
  let token ← token
  if !token.is "\x7d" then failAt token.span.start (.expected "\x7d")
  let rest ← (return (← state).rest : Parse (List Char))
  reread (fragmentToken token.span.start token.newline (readFragment (rest.length + 1) rest))

def templateType (r : Rules) : Parse Unit := do
  advance
  loop (fun _ : Unit => do
    r.type
    resumeTemplate
    match (← token).kind with
    | .templateEnd =>
      advance
      return .stop ()
    | .templatePart =>
      advance
      return .more ()
    | _ => unexpected) ()

def importType (r : Rules) : Parse Unit := do
  expect "import"
  expect "("
  r.type
  if ← eat "," then
    if !(← sees ")") then discard (r.assignment true)
    discard (eat ",")
  expect ")"
  if ← eat "." then discard dottedName
  typeArguments r

def typeQuery (r : Rules) : Parse Unit := do
  expect "typeof"
  if ← sees "import" then importType r
  else
    discard dottedName
    if !(← token).newline then typeArguments r

def typeKeywords : List String :=
  ["any","unknown","string","number","bigint","symbol","boolean","undefined","never",
   "object"]

def primaryType (r : Rules) : Parse Unit := do
  let token ← token
  match token.kind with
  | .string | .number | .bigint | .templateEnd => advance
  | .templatePart => templateType r
  | _ =>
    if token.isAny ["true","false","null","void"] then advance
    else if token.is "-" then
      advance
      if (← seesKind .number) || (← seesKind .bigint) then advance else unexpected
    else if token.is "this" then
      advance
      let next ← Parse.token
      if next.is "is" && !next.newline then
        advance
        r.type
    else if token.is "typeof" then typeQuery r
    else if token.is "\x7b" then
      if ← opensMappedType then mappedType r else discard (typeMembers r)
    else if token.is "[" then discard (enclosed "[" "]" "," (tupleElement r))
    else if token.is "(" then
      advance
      within (fun c => { c with conditionalTypes := true }) r.type
      expect ")"
    else if token.is "import" then importType r
    else if token.is "asserts" then
      let asserted ← nextIs fun next => !next.newline && (next.isName || next.is "this")
      if asserted then
        advance
        advance
        if ← eat "is" then r.type
      else discard (typeReference r)
    else if token.isAny typeKeywords then
      if ← nextIs fun next => next.is "." then discard (typeReference r) else advance
    else discard (typeReference r)

def postfixType (r : Rules) : Parse Unit := do
  primaryType r
  loop (fun _ : Unit => do
    let token ← token
    if token.newline then return .stop ()
    if token.is "!" then
      advance
      return .more ()
    if token.is "[" then
      advance
      if !(← sees "]") then r.type
      expect "]"
      return .more ()
    return .stop ()) ()

def inferredBound (r : Rules) : Parse Unit := do
  let context ← context
  discard (attempt do
    expect "extends"
    within (fun c => { c with conditionalTypes := false }) r.type
    if context.conditionalTypes && (← sees "?") then unexpected)

def typeOperator (r : Rules) : Parse Unit := do
  let token ← token
  if token.isAny ["keyof","unique","readonly"] then
    advance
    r.typeOperator
  else if token.is "infer" then
    advance
    discard boundName
    inferredBound r
  else within (fun c => { c with conditionalTypes := true }) (postfixType r)

def joinedTypes (mark : String) (item : Parse Unit) : Parse Unit := do
  discard (eat mark)
  item
  loop (fun _ : Unit => do
    if ← eat mark then
      item
      return .more ()
    return .stop ()) ()

def functionOr (r : Rules) (item : Parse Unit) : Parse Unit := do
  if ← startsFunctionType r then functionType r else item

def unionType (r : Rules) : Parse Unit :=
  joinedTypes "|" (functionOr r (joinedTypes "&" (functionOr r (typeOperator r))))

def type (r : Rules) : Parse Unit := do
  if ← startsFunctionType r then functionType r
  else
    unionType r
    let token ← token
    if (← context).conditionalTypes && !token.newline && token.is "extends" then
      advance
      within (fun c => { c with conditionalTypes := false }) r.type
      expect "?"
      within (fun c => { c with conditionalTypes := true }) r.type
      expect ":"
      within (fun c => { c with conditionalTypes := true }) r.type

def startsExpression (token : Token) : Bool :=
  match token.kind with
  | .word => !token.isReserved || token.isAny
      ["this","super","null","true","false","function","class","new","delete","typeof",
       "void","import"]
  | .string | .number | .bigint | .regex | .templatePart | .templateEnd | .privateName => true
  | _ => token.isAny
      ["(","[","\x7b","/","/=","+","-","~","!","++","--","<","@"]

def operatorStrengths : List (String × Nat) :=
  [("??", 1),("||", 2),("&&", 3),("|", 4),("^", 5),("&", 6),
   ("==", 7),("!=", 7),("===", 7),("!==", 7),
   ("<", 8),(">", 8),("<=", 8),(">=", 8),("instanceof", 8),("in", 8),("as", 8),
   ("satisfies", 8),("<<", 9),(">>", 9),(">>>", 9),("+", 10),("-", 10),
   ("*", 11),("/", 11),("%", 11),("**", 12)]

def operatorStrength? (token : Token) : Option Nat :=
  (operatorStrengths.find? fun entry => token.is entry.1).map (·.2)

/-- Type arguments within an expression, where `<` could also be an operator. They are taken as
such only if what follows fits. -/
def expressionTypeArguments (r : Rules) : Parse Bool := do
  if !(← dialect).types then return false
  if !(← seesAny ["<","<<","<<=","<="]) then return false
  if ← sees "<=" then return false
  let taken ← attempt do
    splitOpeningAngle
    expect "<"
    discard (separated ">" "," r.type)
    if longAngle (← state).rest == ">=" then unexpected
    expect ">"
    let token ← token
    let follows :=
      if token.is "(" || token.kind == .templatePart || token.kind == .templateEnd then true
      else if token.isAny ["<",">","+","-"] then false
      else token.newline || (operatorStrength? token).isSome || !startsExpression token
    if !follows then unexpected
  return taken.isSome

end Resumable.Script.Grammar
