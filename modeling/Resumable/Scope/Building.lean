import Resumable.Naming
import Resumable.Scope.Basic
import Resumable.Script.Names

/-! The scopes and closures of a program, from its tree, in one walk in source order. A literal is
entered from what it is part of, so each one is met once and with the context that decides how it is
taken out. -/
namespace Resumable

open Script

/-! ### Uses of `super`

`super` means something only inside a method, so a body that uses it cannot become a function of its
own. Functions and classes nested in the body bind their own; arrow functions do not. -/

namespace Script

mutual

def Expr.mentionsSuper : Expr → Bool
  | .superValue _ => true
  | .node _ _ parts => usesSuperAll parts
  | .assign _ _ left right => left.mentionsSuper || right.mentionsSuper
  | .arrow literal => literal.paramsUseSuper || literal.bodyUsesSuper
  | _ => false

def usesSuperAll : List Expr → Bool
  | [] => false
  | value :: rest => value.mentionsSuper || usesSuperAll rest

def Pattern.mentionsSuper : Pattern → Bool
  | .bind _ | .hole => false
  | .object fields => patternsUseSuper fields
  | .field _ keyParts value => usesSuperAll keyParts || value.mentionsSuper
  | .array elements => patternsUseSuper elements
  | .rest pattern => pattern.mentionsSuper
  | .slot decorators pattern initial =>
    usesSuperAll decorators || pattern.mentionsSuper || usesSuperAll initial

def patternsUseSuper : List Pattern → Bool
  | [] => false
  | pattern :: others => pattern.mentionsSuper || patternsUseSuper others

def Func.paramsUseSuper : Func → Bool
  | .mk _ params _ => patternsUseSuper params

def Func.bodyUsesSuper : Func → Bool
  | .mk _ _ body => statementsUseSuper body

def Stmt.mentionsSuper : Stmt → Bool
  | .expression value _ => value.mentionsSuper
  | .block body _ => statementsUseSuper body
  | .variableDecl _ slots _ => patternsUseSuper slots
  | .returns value _ => usesSuperAll value
  | .loop parts _ => statementsUseSuper parts
  | .compound parts _ => statementsUseSuper parts
  | .case test body _ => usesSuperAll test || statementsUseSuper body
  | .handler pattern body _ => patternsUseSuper pattern || body.mentionsSuper
  | .exportDeclaration declaration _ => declaration.mentionsSuper
  | .exportDefault value _ => value.mentionsSuper
  | .enumeration _ initials _ => usesSuperAll initials
  | .typeOnly body _ | .ambient body _ => statementsUseSuper body
  | _ => false

def statementsUseSuper : List Stmt → Bool
  | [] => false
  | statement :: rest => statement.mentionsSuper || statementsUseSuper rest

end

end Script

/-! ### The walk -/

structure Builder where
  tree : Scoping
  current : ScopeIndex := Scoping.root
  allocator : Naming.Allocator := {}
  exportedNames : List String := []
  lists : List (List Nat) := []

structure Selecting where
  source : List Char
  selects : String → Bool

/-- What an expression is part of: how a literal there is taken out and the names it gets, and where
a name there stands. -/
structure Site where
  context : ClosureForm := .expression
  name : Option String := none
  selfName : Option String := none
  role : ScopeRole := .function
  candidate : Bool := true
  position : Position := .plain

structure Candidate where
  kind : LiteralKind
  span : Span
  ownName : Option String := none
  isAsync : Bool := false
  isGenerator : Bool := false
  paramsStart : Nat

inductive Level where
  | top
  | exported
  | nested
  | loose
  deriving DecidableEq, Repr

namespace Builder

def push (builder : Builder) (kind : ScopeRole) (owner : Span) : Builder :=
  let (id, tree) := builder.tree.openScope kind builder.current owner
  { builder with tree, current := id }

def pop (builder : Builder) : Builder :=
  let parent := ((builder.tree.scope? builder.current).bind Scope.parent).getD Scoping.root
  { builder with tree := builder.tree.passUp builder.current, current := parent }

def declareIn (builder : Builder) (scope : ScopeIndex) (name : String) : Builder :=
  { builder with tree := builder.tree.declare scope name }

def declare (builder : Builder) (name : String) : Builder := builder.declareIn builder.current name

def declareAll (builder : Builder) (scope : ScopeIndex) (names : List Ident) : Builder :=
  names.foldl (fun builder id => builder.declareIn scope id.name) builder

def record (builder : Builder) (mention : Mention) (position : Position) (span : Span) : Builder :=
  { builder with
    tree := builder.tree.addReference { mention, span, scope := builder.current, position } }

/-- A variable. `arguments` is one only if some scope declares it or no function is around. -/
def recordName (builder : Builder) (position : Position) (id : Ident) : Builder :=
  let owner :=
    if id.name == "arguments" && (builder.tree.resolve builder.current id.name).isNone then
      builder.tree.ownerOfArguments builder.current
    else none
  match owner with
  | some owner => builder.record (.arguments owner) position id.span
  | none => builder.record (.identifier id.name) position id.span

def recordThis (builder : Builder) (span : Span) : Builder :=
  let owner := ((builder.tree.scope? builder.current).map Scope.thisOwner).getD Scoping.root
  builder.record (.this owner) .plain span

def withList (builder : Builder) (starts : List Nat) (walk : Builder → Builder) : Builder :=
  let after := walk { builder with lists := starts :: builder.lists }
  { after with lists := builder.lists }

def addImport (builder : Builder) (id : Ident) : Builder :=
  let declared := builder.declareIn Scoping.root id.name
  { declared with tree := declared.tree.addImport id.name }

def exportName (builder : Builder) (id : Ident) : Builder :=
  if builder.exportedNames.contains id.name then builder
  else { builder with exportedNames := builder.exportedNames ++ [id.name] }

end Builder

/-- The name under which a closure is exported: the name of a top-level declaration or default
export as it is, else one made from its text. -/
def chooseAlias (setting : Selecting) (context : ClosureForm) (candidate : Candidate)
    (name : Option String) (allocator : Naming.Allocator) : String × Naming.Allocator :=
  let text := (String.ofList (Text.slice setting.source candidate.span.start candidate.span.stop))
  let bytes := text.toUTF8.toList
  let offset := UInt32.ofNat candidate.span.start
  match context, candidate.ownName with
  | .declaration true _ _, some own | .defaultExport _ _, some own => (own, allocator.reserve own)
  | .defaultExport _ _, none => allocator.allocate (some "default") bytes offset
  | _, _ => allocator.allocate name bytes offset

def hoistPoints (lists : List (List Nat)) : ClosureForm → List Nat
  | .declaration false _ statement => (lists.head?.getD []).filter fun start => start < statement.start
  | _ => []

def closureOf (site : Site) (candidate : Candidate) (parent : ScopeIndex) (exportName : String)
    (builder : Builder) : Closure :=
  { name := candidate.ownName.or site.name
    exportName
    kind := candidate.kind
    context := site.context
    scope := builder.current
    parent
    span := candidate.span
    hasOwnName := candidate.ownName.isSome
    isAsync := candidate.isAsync
    isGenerator := candidate.isGenerator
    paramsStart := candidate.paramsStart
    selfName := site.selfName
    hoistPoints := hoistPoints builder.lists site.context }

/-- Makes a closure of a literal, if its name is selected. `parent` is the scope it is written in. -/
def register (setting : Selecting) (site : Site) (candidate : Candidate) (parent : ScopeIndex)
    (builder : Builder) : Bool × Builder :=
  let name := candidate.ownName.or site.name
  if !setting.selects (name.getD "") then (false, builder)
  else
    let (exportName, allocator) := chooseAlias setting site.context candidate name builder.allocator
    let boundAs :=
      if site.context.introducesItself then candidate.ownName.getD exportName else exportName
    let (id, tree) :=
      builder.tree.insertClosure (closureOf site candidate parent exportName builder)
    (true, { builder with tree := tree.addExport parent boundAs id, allocator })

def declaredName (head : Option Ident) : Option String := head.map Ident.name

def Builder.declareOwn (builder : Builder) (scope : ScopeIndex) (id : Option Ident) : Builder :=
  match id with
  | some id => builder.declareIn scope id.name
  | none => builder

def functionCandidate (kind : LiteralKind) (head : FunctionHead) : Candidate :=
  { kind, span := head.span, ownName := declaredName head.name, isAsync := head.isAsync
    isGenerator := head.isGenerator, paramsStart := head.paramsStart }

def classCandidate (head : ClassHead) : Candidate :=
  { kind := .classLiteral, span := head.span, ownName := declaredName head.name
    paramsStart := head.span.start }

def declarationSite (level : Level) (statement : Span) : Site :=
  match level with
  | .top => { context := .declaration true false statement }
  | .exported => { context := .declaration true true statement }
  | .nested => { context := .declaration false false statement }
  | .loose => {}

def initialSite : Pattern → Site
  | .bind id => { name := some id.name, selfName := some id.name }
  | _ => {}

def propertySite (kind : PropertyKind) (key : Key) (member : Span) : Site :=
  match kind with
  | .method =>
    { context := .objectMethod member key.span key.isComputed, name := key.text?, role := .method }
  | .plain => { name := key.text? }
  | .accessor => { role := .method, candidate := false }
  | .shorthand => {}

def Site.inner (site : Site) : Site :=
  { site with role := .function, candidate := true, position := .plain }

def partSite (site : Site) (shape : Shape) (span : Span) (before after : Nat) : Site :=
  match shape, before, after with
  | .group, 0, 0 => site.inner
  | .construct, 0, _ => { position := .constructed }
  | .property .shorthand _, 0, 0 => { position := .shorthand }
  | .property kind key, 0, 0 | .property kind key, 1, 0 => propertySite kind key span
  | _, _, _ => {}

def memberSpan (decorators : List Expr) (span : Span) : Span :=
  ⟨((decorators.getLast?).map fun decorator => decorator.span.stop).getD span.start,span.stop⟩

/-- What is declared around a function before its body is walked: its own name, outside it for a
declaration that is no closure, inside it for an expression. -/
def declareFunctionName (site : Site) (registered : Bool) (parent : ScopeIndex) (head : FunctionHead)
    (builder : Builder) : Builder :=
  if site.context.introducesItself then
    if registered then builder else builder.declareOwn parent head.name
  else builder.declareOwn builder.current head.name

def starts (statements : List Stmt) : List Nat := statements.map fun statement => statement.span.start

mutual

def walkExpr (setting : Selecting) (site : Site) : Expr → Builder → Builder
  | .name id, builder => builder.recordName site.position id
  | .target id, builder => builder.recordName .assigned id
  | .tag id, builder => builder.recordName .tag id
  | .thisValue span, builder => builder.recordThis span
  | .node shape span parts, builder => walkParts setting site shape span 0 parts builder
  | .assign _ _ left right, builder => walkExpr setting {} right (walkExpr setting {} left builder)
  | .function literal, builder => walkFunction setting site literal builder
  | .arrow literal, builder => walkArrow setting site literal builder
  | .classLiteral literal, builder => walkClass setting site literal builder
  | _, builder => builder

def walkParts (setting : Selecting) (site : Site) (shape : Shape) (span : Span) (before : Nat) :
    List Expr → Builder → Builder
  | [], builder => builder
  | part :: rest, builder =>
    walkParts setting site shape span (before + 1) rest
      (walkExpr setting (partSite site shape span before rest.length) part builder)

def walkExprs (setting : Selecting) : List Expr → Builder → Builder
  | [], builder => builder
  | value :: rest, builder => walkExprs setting rest (walkExpr setting {} value builder)

def walkInitial (setting : Selecting) (site : Site) : List Expr → Builder → Builder
  | [], builder => builder
  | value :: rest, builder => walkInitial setting site rest (walkExpr setting site value builder)

def walkPattern (setting : Selecting) : Pattern → Builder → Builder
  | .bind _, builder | .hole, builder => builder
  | .object fields, builder => walkPatterns setting fields builder
  | .field _ keyParts value, builder => walkPattern setting value (walkExprs setting keyParts builder)
  | .array elements, builder => walkPatterns setting elements builder
  | .rest pattern, builder => walkPattern setting pattern builder
  | .slot decorators pattern initial, builder =>
    walkExprs setting initial (walkPattern setting pattern (walkExprs setting decorators builder))

def walkPatterns (setting : Selecting) : List Pattern → Builder → Builder
  | [], builder => builder
  | pattern :: others, builder => walkPatterns setting others (walkPattern setting pattern builder)

/-- Declared variables: a literal that is an initial value is named after its variable. -/
def walkSlots (setting : Selecting) : List Pattern → Builder → Builder
  | [], builder => builder
  | .slot decorators pattern initial :: others, builder =>
    let walked := walkPattern setting pattern (walkExprs setting decorators builder)
    walkSlots setting others (walkInitial setting (initialSite pattern) initial walked)
  | pattern :: others, builder => walkSlots setting others (walkPattern setting pattern builder)

def walkFunction (setting : Selecting) (site : Site) : Func → Builder → Builder
  | .mk head params body, builder =>
    if !head.hasBody then
      if site.context.introducesItself then builder.declareOwn builder.current head.name else builder
    else
      let parent := builder.current
      let entered := builder.push site.role head.span
      let (registered, entered) :=
        if site.candidate && !statementsUseSuper body then
          register setting site (functionCandidate .function head) parent entered
        else (false, entered)
      let named := declareFunctionName site registered parent head entered
      let declared := named.declareAll named.current (Params.names params)
      let walked := walkPatterns setting params declared
      (walked.withList (starts body) (walkStmts setting .nested body)).pop

def walkArrow (setting : Selecting) (site : Site) : Func → Builder → Builder
  | .mk head params body, builder =>
    let parent := builder.current
    let entered := builder.push .arrow head.span
    let entered :=
      if statementsUseSuper body then entered
      else (register setting site (functionCandidate .arrow head) parent entered).2
    let declared := entered.declareAll entered.current (Params.names params)
    let walked := walkPatterns setting params declared
    (walked.withList (starts body) (walkStmts setting .nested body)).pop

/-- Decorators and the base are evaluated when the class is defined, and belong to it. -/
def walkClass (setting : Selecting) (site : Site) : ClassLiteral → Builder → Builder
  | .mk head decorators base members, builder =>
    if head.isAmbient then
      if site.context.introducesItself then builder.declareOwn builder.current head.name else builder
    else
      let parent := builder.current
      let entered := walkExprs setting base
        (walkExprs setting decorators (builder.push .classBody head.span))
      let (registered, entered) := register setting site (classCandidate head) parent entered
      let named :=
        if !registered && site.context.introducesItself then entered.declareOwn parent head.name
        else entered
      (walkMembers setting members (named.declareOwn named.current head.name)).pop

def walkMembers (setting : Selecting) : List Member → Builder → Builder
  | [], builder => builder
  | member :: rest, builder => walkMembers setting rest (walkMember setting member builder)

/-- A member of a class. The decorators of a field are not walked. -/
def walkMember (setting : Selecting) : Member → Builder → Builder
  | .method kind isStatic decorators key keyParts literal span, builder =>
    let site : Site :=
      { context := .classMethod (memberSpan decorators span) key.span key.isComputed isStatic
        name := key.text?
        role := .method
        candidate := kind == .method }
    let before := walkExprs setting keyParts (walkExprs setting decorators builder)
    walkFunction setting site literal before
  | .field _ key keyParts initial span, builder =>
    let before := walkExprs setting keyParts builder
    if initial.isEmpty then before
    else
      (walkInitial setting { name := key.text? } initial (before.push .classMember span)).pop
  | .block body span, builder =>
    ((builder.push .classMember span).withList (starts body) (walkStmts setting .nested body)).pop
  | .signature, builder => builder

def walkStmts (setting : Selecting) (level : Level) : List Stmt → Builder → Builder
  | [], builder => builder
  | statement :: rest, builder => walkStmts setting level rest (walkStmt setting level statement builder)

/-- A statement. What an enumeration, a namespace or an interface holds is walked only if it is exported below the
top level. -/
def walkStmt (setting : Selecting) (level : Level) : Stmt → Builder → Builder
  | .expression value _, builder => walkExpr setting {} value builder
  | .block body _, builder => builder.withList (starts body) (walkStmts setting .nested body)
  | .variableDecl kind slots _, builder =>
    let scope :=
      if kind == .var then builder.tree.functionScope builder.current else builder.current
    walkSlots setting slots (builder.declareAll scope (Pattern.namesOfAll slots))
  | .function literal, builder =>
    walkFunction setting (declarationSite level literal.head.span) literal builder
  | .classDecl literal, builder =>
    walkClass setting (declarationSite level literal.head.span) literal builder
  | .returns value _, builder => walkExprs setting value builder
  | .loop parts span, builder => (walkStmts setting .nested parts (builder.push .loop span)).pop
  | .compound parts _, builder => walkStmts setting .nested parts builder
  | .case test body _, builder =>
    (walkExprs setting test builder).withList (starts body) (walkStmts setting .nested body)
  | .handler pattern body _, builder =>
    let declared := builder.declareAll builder.current (Pattern.namesOfAll pattern)
    walkStmt setting .nested body (walkPatterns setting pattern declared)
  | .imports locals _, builder => locals.foldl Builder.addImport builder
  | .exportNames locals _ _, builder =>
    let listed := if level == .top then locals.foldl Builder.exportName builder else builder
    locals.foldl (fun builder id => builder.recordName .plain id) listed
  | .exportDeclaration declaration _, builder =>
    walkStmt setting (if level == .top then .exported else .loose) declaration builder
  | .exportDefault value span, builder => walkDefault setting span value builder
  | .reexport _ _, builder => builder
  | .enumeration id initials _, builder =>
    if level == .loose then walkExprs setting initials builder else builder.declare id.name
  | .typeOnly body _, builder =>
    if level == .loose then builder.withList (starts body) (walkStmts setting .nested body) else builder
  | .ambient body _, builder =>
    if level == .exported then builder
    else builder.withList (starts body) (walkStmts setting .nested body)

def walkDefault (setting : Selecting) (statement : Span) : Stmt → Builder → Builder
  | .function literal, builder =>
    walkFunction setting { context := .defaultExport statement true } literal builder
  | .classDecl literal, builder =>
    walkClass setting { context := .defaultExport statement true } literal builder
  | .expression value _, builder =>
    walkExpr setting { context := .defaultExport statement false } value builder
  | _, builder => builder

end

structure Analysis where
  tree : Scoping
  exportedNames : List String

def analyze (setting : Selecting) (program : Program) : Analysis :=
  let builder : Builder := { tree := Scoping.ofProgram program.span }
  let walked := builder.withList (starts program.body) (walkStmts setting .top program.body)
  { tree := walked.tree, exportedNames := walked.exportedNames }

end Resumable
