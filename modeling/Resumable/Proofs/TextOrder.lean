import Resumable.Proofs.Surveying

/-! Every walk over a tree that stands in its text in order is a survey of that text. -/
namespace Resumable
open Script List Scoping Builder Option Span ClosureForm Text
variable {high' first last name low' : Nat} {level : Level} {span literal : Span} {site : Site}
  {source : List Char} {middle after : Builder}

def anywhere : Span → Prop := fun _ => True

namespace Surveys

variable {setting : Selecting} {points shown : List Nat} {allowed : Span → Prop} {low high : Nat}
  {builder later : Builder} {statements : List Stmt}

section
variable (surveys : Surveys setting points shown allowed low builder high later)
include surveys

lemma widen (lower : low' ≤ low)
    (higher : high ≤ high') : Surveys setting points [] anywhere low' builder high' later :=
  surveys.mono (Subset.refl _) (nil_subset _) (fun _ _ _ _ _ => trivial) lower higher

lemma longer (higher : high ≤ high') : Surveys setting points shown allowed low builder high' later :=
  surveys.relax (fun _ _ _ _ stands => stands) le_rfl higher

end

lemma sealed (surveys : Surveys setting [] shown allowed low builder high later) :
    Surveys setting points shown allowed low builder high later :=
  surveys.mono (nil_subset _) (Subset.refl _) (fun _ _ _ _ stands => stands) le_rfl le_rfl

lemma foldl_quiet {α : Type} {step : Builder → α → Builder} (values : List α)
    (steps : ∀ value {builder}, Surveys setting points [] allowed low builder low (step builder value)) :
    Surveys setting points [] allowed low builder low (values.foldl step builder) := by
  induction values generalizing builder with
  | nil => exact done le_rfl
  | cons value rest ih => exact (steps value).andThen ih

lemma declareIn (scope : ScopeIndex) (name : String) :
    Surveys setting points [] allowed low builder low (builder.declareIn scope name) :=
  quiet (.declares scope name trivial) rfl (referencesIn_declare ..) le_rfl

lemma declareAll (scope : ScopeIndex) (ids : List Ident) :
    Surveys setting points [] allowed low builder low (builder.declareAll scope ids) :=
  foldl_quiet ids fun id => declareIn scope id.name

lemma declareOwn (scope : ScopeIndex) (id : Option Ident) :
    Surveys setting points [] allowed low builder low (builder.declareOwn scope id) := by
  cases id with
  | none => exact done le_rfl
  | some id => exact declareIn scope id.name

lemma declareFunctionName (site : Site) (registered : Bool) (parent : ScopeIndex) (head : FunctionHead) :
    Surveys setting points [] allowed low builder low (declareFunctionName site registered parent head builder) := by
  unfold Resumable.declareFunctionName
  split
  · split
    · exact done le_rfl
    · exact declareOwn ..
  · exact declareOwn ..

lemma imports (ids : List Ident) :
    Surveys setting points [] allowed low builder low (ids.foldl Builder.addImport builder) := by
  refine foldl_quiet ids fun id => quiet (.imports id trivial) rfl ?_ le_rfl
  rw [Builder.addImport,Scoping.addImport,referencesIn_updateScope (by intro _; rfl)]
  exact referencesIn_declare ..

lemma exports (ids : List Ident) :
    Surveys setting points [] allowed low builder low (ids.foldl exportName builder) := by
  refine foldl_quiet ids fun id => quiet (.exports id trivial) ?_ ?_ le_rfl
  · rw [exportName_tree]
  · rw [exportName_tree]

lemma names (position : Position) (ids : List Ident) (reached : identsReach setting.source ids low = some high) :
    Surveys setting points [] anywhere low builder high
      (ids.foldl (fun builder id => builder.recordName position id) builder) := by
  induction ids generalizing low builder with
  | nil =>
    simp only [identsReach,some.injEq] at reached
    exact done reached.le
  | cons id rest ih =>
    simp only [identsReach] at reached
    obtain ⟨middle,head,tail⟩ := bind_eq_some_iff.1 reached
    obtain ⟨rfl,start,fits⟩ := reach_eq_some.1 head
    exact (name position fits start le_rfl trivial).andThen (ih tail)

lemma body (walked : ∀ {builder : Builder}, builder.lists.head?.getD [] ⊆ starts statements →
      Surveys setting (starts statements) (starts statements) allowed low builder high
        (walkStmts setting level statements builder)) :
    Surveys setting points [] allowed low builder high
      (builder.withList (starts statements) (walkStmts setting level statements)) :=
  (@walked { builder with lists := starts statements :: builder.lists } (Subset.refl _)).list (Subset.refl _)

lemma statement {reached : Nat} (fits : span.fits setting.source = true) (lower : low ≤ span.start)
    (inner : Surveys setting points shown allowed span.start builder reached later)
    (within : reached ≤ span.stop) :
    Surveys setting points [span.start] anywhere low builder span.stop later := by
  have ⟨ordered,cuts,_⟩ := fits_iff.1 fits
  have opened : Surveys setting points [] (fun other => span.start ≤ other.start) span.start builder span.stop later :=
    inner.mono (Subset.refl _) (nil_subset _) (fun _ start _ _ _ => start) le_rfl within
  exact (opened.point cuts le_rfl ordered (fun _ start => .inr start) le_rfl).relax
    (fun _ _ _ _ _ => trivial) lower le_rfl

lemma around {reach : Nat → Option Nat} (reached : span.around setting.source reach low = some high)
    (inner : ∀ {last}, reach span.start = some last →
      Surveys setting points shown allowed span.start builder last later) :
    Surveys setting points [span.start] anywhere low builder high later := by
  obtain ⟨rfl,lower,fits,last,inside,within⟩ := around_eq_some.1 reached
  exact (inner inside).statement fits lower within

lemma stop (reached : some low = some high) : Surveys setting points [] allowed low builder high builder :=
  done (some.inj reached).le

lemma bind {part : Option Nat} {rest : Nat → Option Nat} (reached : part.bind rest = some high)
    (one : ∀ {between}, part = some between → Surveys setting points [] allowed low builder between middle)
    (two : ∀ {between}, rest between = some high → Surveys setting points [] allowed between middle high later) :
    Surveys setting points [] allowed low builder high later := by
  obtain ⟨between,head,tail⟩ := bind_eq_some_iff.1 reached
  exact (one head).andThen (two tail)

lemma named {id : Ident} (position : Position) (reached : id.span.reach setting.source low' = some high)
    (lower : low ≤ low') (higher : high ≤ high') :
    Surveys setting points [] anywhere low builder high' (builder.recordName position id) := by
  obtain ⟨rfl,start,fits⟩ := reach_eq_some.1 reached
  exact name position fits (lower.trans start) higher trivial

lemma parts {params : List Pattern} {middle : Nat} (given : ∀ {builder},
      Surveys setting [] [] anywhere low builder middle (walkPatterns setting params builder))
    (walked : ∀ {builder : Builder}, builder.lists.head?.getD [] ⊆ starts statements →
      Surveys setting (starts statements) (starts statements) anywhere middle builder high
        (walkStmts setting .nested statements builder)) (builder : Builder) :
    Surveys setting [] [] anywhere low builder high ((walkPatterns setting params
        (builder.declareAll builder.current (Params.names params))).withList (starts statements)
          (walkStmts setting .nested statements)) :=
  (declareAll _ (Params.names params)).andThen (given.andThen (body walked))

lemma quietStatement (fits : span.fits setting.source = true) (lower : low ≤ span.start)
    (inner : Surveys setting points [] anywhere span.start builder span.start later) :
    Surveys setting points [span.start] anywhere low builder span.stop later :=
  inner.statement fits lower (fits_iff.1 fits).1

end Surveys

/-! ### Sites -/

/-- Where an expression stands from `low` to `high`, as its site says: by itself, or as the value of a
default export. The stretch that belongs to the site goes from `first` to `last`. -/
def Site.Frames (site : Site) (source : List Char) (low high first last : Nat) : Prop :=
  match site.context with
  | .expression => first ≤ low ∧ high ≤ last
  | .defaultExport statement false => statement.fits source = true ∧ first ≤ statement.start ∧
    statement.start < low ∧ high ≤ statement.stop ∧ statement.stop ≤ last
  | _ => False

section
variable {low high : Nat} {form : ClosureForm} {builder : Builder} {points shown shown' : List Nat}
  {setting : Selecting}

section
variable (frames : site.Frames source low high first last)
include frames

lemma Site.Frames.within (lower : low ≤ low') (higher : high' ≤ high) : site.Frames source low' high' first last := by
  unfold Site.Frames at frames ⊢
  split <;> simp_all <;> omega

lemma Site.Frames.bounds : first ≤ low ∧ high ≤ last := by
  unfold Site.Frames at frames
  split at frames
  · exact frames
  · omega
  · exact frames.elim

end

lemma Site.Frames.plain (plain : site.context = .expression) (lower : first ≤ low)
    (higher : high ≤ last) : site.Frames source low high first last := by
  rw [Site.Frames,plain]
  exact ⟨lower,higher⟩

lemma Site.Frames.whole (plain : site.context = .expression) : site.Frames source low high low high :=
  .plain plain le_rfl le_rfl

lemma Site.Frames.stands (frames : site.Frames source low high first last) (lower : low ≤ literal.start)
    (higher : literal.stop ≤ high) : site.context.Stands source literal first last := by
  unfold Site.Frames at frames
  split at frames
  · rename_i context
    rw [context]
    exact ⟨frames.1.trans lower,higher.trans frames.2⟩
  · rename_i statement context
    rw [context]
    obtain ⟨fits,start,before,after,stop⟩ := frames
    exact ⟨fits,start,before.trans_le lower,higher.trans after,stop⟩
  · exact frames.elim

lemma ClosureForm.Stands.bounds (stands : form.Stands source literal low high) :
    low ≤ literal.start ∧ literal.stop ≤ high := by
  unfold Stands at stands
  split at stands
  · exact stands
  · exact stands.2
  · have := (fits_iff.1 stands.2.1).1
    omega
  · have := (fits_iff.1 stands.2.1).1
    omega
  · omega

/-- What a literal may be taken out from: a site, and where declarations in it can move to. -/
structure Site.Allows (site : Site) (builder : Builder) (points : List Nat) : Prop where
  unnamed : site.context.introducesItself = true → site.name = none
  offered : hoistPoints builder.lists site.context ⊆ points
  grounded : ∀ exported statement, site.context = .declaration true exported statement → builder.current = root

lemma Site.Allows.of_expression (plain : site.context = .expression) : site.Allows builder points := by
  refine ⟨?_,?_,?_⟩
  · rw [plain]
    exact nofun
  · rw [plain]
    exact nil_subset _
  · rw [plain]
    exact nofun

lemma Site.Allows.of_method (isMethod : site.context.isMethod = true) : site.Allows builder points := by
  refine ⟨fun introduces => ?_,?_,fun exported statement context => ?_⟩
  · cases context : site.context <;> simp_all [ClosureForm.isMethod,ClosureForm.introducesItself]
  · cases context : site.context <;> simp_all [ClosureForm.isMethod,hoistPoints]
  · simp [context,ClosureForm.isMethod] at isMethod

section
variable (frames : site.Frames source low high first last)
include frames

lemma Site.Frames.allows (builder : Builder) (points : List Nat) : site.Allows builder points := by
  unfold Site.Frames at frames
  split at frames
  · exact .of_expression ‹_›
  · rename_i context
    refine ⟨?_,?_,?_⟩
    · rw [context]
      exact nofun
    · rw [context]
      exact nil_subset _
    · rw [context]
      exact nofun
  · exact frames.elim

lemma Site.Frames.noMethod : site.context.isMethod = false := by
  unfold Site.Frames at frames
  split at frames
  · rename_i context
    rw [context]
    rfl
  · rename_i context
    rw [context]
    rfl
  · exact frames.elim

end

lemma propertySite_context {kind : PropertyKind} (noMethod : kind ≠ .method) (key : Key) (span : Span) :
    (propertySite kind key span).context = .expression := by
  cases kind with
  | method => exact absurd rfl noMethod
  | _ => rfl

lemma partSite_plain {shape : Shape} {before after : Nat}
    (noMethod : ∀ key, shape ≠ .property .method key) (several : shape = .group → before + after ≠ 0) :
    (partSite site shape span before after).context = .expression := by
  unfold partSite
  split
  · exact absurd rfl (several rfl)
  · rfl
  · rfl
  · exact propertySite_context (fun method => noMethod _ (congrArg (Shape.property · _) method)) ..
  · exact propertySite_context (fun method => noMethod _ (congrArg (Shape.property · _) method)) ..
  · rfl

lemma declarationSite_allows (listed : builder.lists.head?.getD [] ⊆ points)
    (ground : level = .top ∨ level = .exported → builder.current = root) :
    (declarationSite level span).Allows builder points := by
  cases level with
  | top => exact ⟨fun _ => rfl,nil_subset _,fun _ _ _ => ground (.inl rfl)⟩
  | exported => exact ⟨fun _ => rfl,nil_subset _,fun _ _ _ => ground (.inr rfl)⟩
  | nested => exact ⟨fun _ => rfl,fun point member => listed (mem_of_mem_filter member),nofun⟩
  | loose => exact .of_expression rfl

lemma declarationSite_stands (level : Level) (lower : low ≤ span.start) (higher : span.stop ≤ high) :
    (declarationSite level span).context.Stands source span low high := by
  cases level with
  | loose => exact ⟨lower,higher⟩
  | _ => exact ⟨rfl,lower,higher⟩

lemma declarationSite_noMethod (level : Level) (span : Span) :
    (declarationSite level span).context.isMethod = false := by
  cases level <;> rfl

lemma declarationSite_stays (level : Level) (span : Span) {statement : Span} {isDeclaration : Bool} :
    (declarationSite level span).context ≠ .defaultExport statement isDeclaration := by
  cases level <;> nofun

/-- Where something is found for a function or class: at the ranges that its form gives it, at the
statement that exports it, and after the place for its name. -/
def ClosureForm.Covers (form : ClosureForm) (literal : Span) (name : Nat) (span : Span) : Prop :=
  (∃ taken, (span, taken) ∈ form.ranges literal name) ∨
    (∃ isDeclaration, form = .defaultExport span isDeclaration) ∨ name ≤ span.start

lemma declarationSite_covers (covers : (declarationSite level literal).context.Covers literal name span)
    (ordered : literal.start ≤ literal.stop) (after : literal.start ≤ name) :
    literal.start ≤ span.start := by
  rcases covers with ⟨taken,listed⟩ | ⟨_,exports⟩ | behind
  · cases level <;> simp only [declarationSite,ClosureForm.ranges,mem_cons,Prod.mk.injEq,
      not_mem_nil,or_false] at listed
    · rcases listed with ⟨rfl,-⟩ | ⟨rfl,-⟩
      · exact le_rfl
      · exact ordered
    · rcases listed with ⟨rfl,-⟩ | ⟨rfl,-⟩
      · exact le_rfl
      · exact ordered
    · exact listed.1 ▸ le_rfl
    · exact listed.1 ▸ le_rfl
  · exact absurd exports (declarationSite_stays level literal)
  · exact after.trans behind

lemma Surveys.function {role : ScopeRole} {kind : LiteralKind} {head : FunctionHead}
    (isFunction : kind ≠ .classLiteral) (allows : site.Allows builder points)
    (stands : site.context.Stands setting.source head.span low high)
    (fits : head.span.fits setting.source = true) (start : head.span.start ≤ head.paramsStart)
    (cuts : cutsAt setting.source head.paramsStart = true)
    (inner : Surveys setting [] shown anywhere head.paramsStart
      (register setting site (functionCandidate kind head) builder.current (builder.push role head.span)).2
      head.span.stop after) :
    Surveys setting points [] (site.context.Covers head.span head.paramsStart) low builder high
      after.pop := by
  have ⟨lower,higher⟩ := stands.bounds
  have offset : ∀ exportName builder', nameOffset setting.source
      (closureOf site (functionCandidate kind head) builder.current exportName builder') =
        head.paramsStart := by
    intro exportName builder'
    have other : (kind == LiteralKind.classLiteral) = false := by simpa using isFunction
    simp [nameOffset,closureOf,functionCandidate,other]
  have later : Surveys setting [] shown (fun span => head.paramsStart ≤ span.start ∧
      span.stop ≤ head.span.stop) head.paramsStart _ head.span.stop after :=
    inner.loosen fun _ start _ stop _ => ⟨start,stop⟩
  have before : Surveys setting [] [] (fun _ => False) head.paramsStart (builder.push role head.span)
      head.span.stop (builder.push role head.span) := .done inner.ordered
  refine (Surveys.closure ⟨allows.unnamed,False.elim⟩ (fun _ => rfl) before later
    (fun _ _ none _ => none.elim) (lower.trans start) higher (fun exportName found holds => ?_) allows.offered
    allows.grounded).loosen ?_
  · refine Closure.Stands.sited ⟨stands,fits,?_,?_,fun _ => ⟨?_,isFunction⟩,Nat.zero_le _,
      fun _ _ _ => Nat.zero_le _⟩ fun place => .inr ?_
    · rw [offset]
      exact ⟨start,inner.ordered⟩
    · rw [offset]
      exact cuts
    · rw [offset]
      rfl
    · rw [offset]
      exact (holds place).resolve_left id
  · rintro span - - - (⟨exportName,taken,listed⟩ | exports | none | ⟨after,-⟩)
    · refine .inl ⟨taken,?_⟩
      rw [Closure.ranges,offset] at listed
      exact listed
    · exact .inr (.inl exports)
    · exact none.elim
    · exact .inr (.inr after)

lemma Surveys.method {key : Span} {lead : Span → Prop} (one : Surveys setting points shown lead low builder high middle)
    (two : Surveys setting points shown' (form.Covers literal name) low middle high after)
    (ranges : form.ranges literal name = [(⟨first,key.start⟩, false),(⟨key.stop,last⟩, true)])
    (start : first ≤ key.start) (ordered : key.start ≤ key.stop) (params : key.stop ≤ name)
    (around : ∀ span, lead span → span.stop ≤ first ∨ key.start ≤ span.start ∧ span.stop ≤ key.stop) :
    Surveys setting points [] anywhere low builder high after := by
  refine (one.both two fun a b leads covers => ?_).widen le_rfl le_rfl
  have stop : a.stop ≤ key.stop := by
    rcases around a leads with before | within
    · omega
    · exact within.2
  rcases covers with ⟨taken,listed⟩ | ⟨isDeclaration,rfl⟩ | behind
  · rw [ranges] at listed
    rcases mem_pair.1 listed with same | same
    · cases same
      exact (around a leads).imp id And.left
    · cases same
      exact .inl stop
  · cases isDeclaration <;> simp [ClosureForm.ranges] at ranges
  · exact .inl (stop.trans (params.trans behind))

lemma Surveys.class {bottom middle : Nat} {before : Builder} {head : ClassHead}
    (allows : site.Allows builder points) (stands : site.context.Stands setting.source head.span low high)
    (noMethod : site.context.isMethod = false) (fits : head.span.fits setting.source = true)
    (start : first ≤ head.span.start) (exported : ∀ statement isDeclaration,
      site.context = .defaultExport statement isDeclaration → first ≤ statement.start)
    (lower : low ≤ bottom) (named : classNameOffset setting.source head.span.start ≤ middle)
    (one : Surveys setting [] shown
      (fun span => span.stop ≤ first ∨ classNameOffset setting.source head.span.start ≤ span.start) bottom
      (builder.push .classBody head.span) middle before) (two : Surveys setting [] shown' anywhere middle
      (register setting site (classCandidate head) builder.current before).2 head.span.stop after) :
    Surveys setting points [] (fun span => span.stop ≤ first ∨
      site.context.Covers head.span (classNameOffset setting.source head.span.start) span) low builder high
      after.pop := by
  have higher := stands.bounds.2
  have cuts : cutsAt setting.source (classNameOffset setting.source head.span.start) = true := by
    unfold classNameOffset
    split
    · exact cutsAt_of_opensClass ‹_›
    · exact (fits_iff.1 fits).2.1
  have earlier : Surveys setting [] shown (fun span => (span.stop ≤ first ∨
      classNameOffset setting.source head.span.start ≤ span.start) ∧ span.stop ≤ middle) bottom
      (builder.push .classBody head.span) head.span.stop before :=
    one.relax (fun _ _ _ stop stands => ⟨stands,stop⟩) le_rfl two.ordered
  have later : Surveys setting [] shown' (fun span => middle ≤ span.start ∧ span.stop ≤ head.span.stop)
      bottom _ head.span.stop after :=
    two.relax (fun _ start _ stop _ => ⟨start,stop⟩) one.ordered le_rfl
  refine (Surveys.closure ⟨allows.unnamed,False.elim⟩ (fun other => absurd rfl other) earlier later
    (fun _ _ one two => .inl (one.2.trans two.1)) lower higher (fun exportName found holds => ?_) allows.offered
    allows.grounded).loosen ?_
  · refine Closure.Stands.sited ⟨stands,fits,⟨le_classNameOffset ..,named.trans two.ordered⟩,cuts,
      fun isMethod => absurd (noMethod.symm.trans isMethod) Bool.false_ne_true,start,exported⟩ fun place => ?_
    rcases holds place with ⟨front | after,stop⟩ | ⟨after,stop⟩
    · exact .inl ⟨rfl,front⟩
    · exact .inr ⟨after,stop.trans two.ordered⟩
    · exact .inr ⟨named.trans after,stop⟩
  · rintro span - - - (⟨exportName,taken,listed⟩ | exports | ⟨front | after,-⟩ | ⟨after,-⟩)
    · exact .inr (.inl ⟨taken,listed⟩)
    · exact .inr (.inr (.inl exports))
    · exact .inl front
    · exact .inr (.inr (.inr after))
    · exact .inr (.inr (.inr (named.trans after)))

lemma Surveys.declaredClass {offset : Nat} {later : Builder}
    (surveys : Surveys setting points [] (fun span => span.stop ≤ first ∨
      (declarationSite level literal).context.Covers literal name span) low builder high later)
    (ordered : literal.start ≤ literal.stop) (named : literal.start ≤ name)
    (cuts : cutsAt setting.source offset = true) (lower : low ≤ offset) (higher : offset ≤ high)
    (after : first ≤ offset) (before : offset ≤ literal.start) :
    Surveys setting points [offset] anywhere low builder high later := by
  have around : Surveys setting points [] (fun span => span.stop ≤ offset ∨ offset ≤ span.start) low builder
      high later :=
    surveys.loosen fun _ _ _ _ stands => stands.imp (le_trans · after) fun covers =>
      before.trans (declarationSite_covers covers ordered named)
  exact (around.point cuts lower higher (fun _ => id) (.inl le_rfl)).loosen fun _ _ _ _ _ => trivial

end

/-! ### Every walk is a survey -/

section
variable (setting : Selecting)

mutual

lemma walkExpr_surveys (site : Site) (value : Expr) {first last : Nat}
    (reached : value.reach setting.source low = some high) (frames : site.Frames setting.source low high first last) :
    Surveys setting [] [] anywhere first builder last (walkExpr setting site value builder) := by
  have ⟨lower,higher⟩ := frames.bounds
  cases value with
  | name id => exact .named site.position reached lower higher
  | target id => exact .named .assigned reached lower higher
  | tag id => exact .named .tag reached lower higher
  | thisValue span =>
    obtain ⟨rfl,start,fits⟩ := reach_eq_some.1 reached
    exact .record _ _ fits (lower.trans start) higher trivial
  | node shape span parts =>
    rcases Expr.reach_node reached with ⟨key,rfl,method⟩ | ⟨other,plain⟩
    · obtain ⟨rfl,start,fits,inner,inside,within⟩ := around_eq_some.1 method
      exact (walkMethod_surveys site key span parts fits inside within).widen (lower.trans start) higher
    obtain ⟨rfl,start,fits,inner,inside,within⟩ := around_eq_some.1 plain
    cases parts with
    | nil => exact .done ((lower.trans start).trans ((fits_iff.1 fits).1.trans higher))
    | cons part rest =>
      by_cases single : shape = .group ∧ rest = []
      · obtain ⟨rfl,rfl⟩ := single
        simp only [exprsReach] at inside
        obtain ⟨reached,partReached,same⟩ := bind_eq_some_iff.1 inside
        cases some.inj same
        have framed : site.inner.Frames setting.source span.start inner first last := frames.within start within
        exact walkExpr_surveys site.inner part partReached framed
      · refine (walkParts_surveys site shape span 0 (part :: rest) inside fun b a total => ?_).widen
          (lower.trans start) (within.trans higher)
        refine partSite_plain other fun group => ?_
        have several : rest.length ≠ 0 := fun alone => single ⟨group,length_eq_zero_iff.1 alone⟩
        rw [length_cons] at total
        omega
  | assign plain span left right =>
    obtain ⟨rfl,start,fits,inner,inside,within⟩ := around_eq_some.1 reached
    obtain ⟨middle,leftReached,rightReached⟩ := bind_eq_some_iff.1 inside
    exact ((walkExpr_surveys {} left leftReached (.whole rfl)).andThen
      (walkExpr_surveys {} right rightReached (.whole rfl))).widen (lower.trans start) (within.trans higher)
  | function literal =>
    obtain ⟨rfl,start,-⟩ := Func.reach_bounds reached
    exact (walkFunction_surveys site literal reached (frames.allows builder [])
      (frames.stands start le_rfl)).widen le_rfl le_rfl
  | arrow literal =>
    obtain ⟨rfl,start,-⟩ := Func.reach_bounds reached
    exact (walkArrow_surveys site literal reached (frames.allows builder [])
      (frames.stands start le_rfl)).widen le_rfl le_rfl
  | classLiteral literal =>
    obtain ⟨rfl,start,-⟩ := ClassLiteral.reach_bounds reached
    exact (walkClass_surveys site literal reached (frames.allows builder [])
      (frames.stands start le_rfl) frames.noMethod (fun _ _ _ => Nat.zero_le _) lower).widen le_rfl le_rfl
  | superValue span | number _ span | string _ span | boolean _ span | null span | atom span | hole span =>
    obtain ⟨rfl,start,fits⟩ := reach_eq_some.1 reached
    exact .done ((lower.trans start).trans ((fits_iff.1 fits).1.trans higher))

lemma walkMethod_surveys (site : Site) (key : Key) (span : Span) (parts : List Expr)
    (fits : span.fits setting.source = true)
    (reached : methodReach setting.source key parts span.start = some high) (within : high ≤ span.stop) :
    Surveys setting [] [] anywhere span.start builder span.stop
      (walkParts setting site (.property .method key) span 0 parts builder) := by
  have stands {literal : Func} (keyFits : key.span.fits setting.source = true)
      (start : span.start ≤ key.span.start) (after : key.span.stop ≤ literal.head.span.start)
      (within : literal.head.span.stop ≤ span.stop) :
      (propertySite .method key span).context.Stands setting.source literal.head.span span.start
        span.stop := ⟨fits,keyFits,le_rfl,start,after,within,le_rfl⟩
  have shape := methodReach_parts reached
  cases parts with
  | nil => simp at shape
  | cons part rest =>
    cases rest with
    | nil =>
      cases part with
      | function literal =>
        rw [methodReach_named] at reached
        obtain ⟨middle,keyReached,literalReached⟩ := bind_eq_some_iff.1 reached
        obtain ⟨rfl,keyStart,keyFits⟩ := reach_eq_some.1 keyReached
        obtain ⟨rfl,after,-⟩ := Func.reach_bounds literalReached
        exact (walkFunction_surveys _ literal literalReached (.of_method rfl)
          (stands keyFits keyStart after within)).widen le_rfl le_rfl
      | _ => simp at shape
    | cons second others =>
      cases others with
      | nil =>
        cases second with
        | function literal =>
          rw [methodReach_computed] at reached
          obtain ⟨middle,keyReached,literalReached⟩ := bind_eq_some_iff.1 reached
          obtain ⟨rfl,keyStart,keyFits,named,nameReached,nameWithin⟩ := around_eq_some.1 keyReached
          obtain ⟨rfl,after,literalFits,params⟩ := Func.reach_bounds literalReached
          have ordered := (fits_iff.1 keyFits).1
          have lead : Surveys setting [] [] (fun other => key.span.start ≤ other.start ∧
              other.stop ≤ key.span.stop) span.start builder span.stop (walkExpr setting {} part builder) :=
            (walkExpr_surveys {} part nameReached (.plain rfl le_rfl nameWithin)).relax
              (fun _ start _ stop _ => ⟨start,stop⟩) keyStart
              (after.trans ((fits_iff.1 literalFits).1.trans within))
          have function := @walkFunction_surveys (walkExpr setting {} part builder) [] _ _ _ literal _ _
            literalReached (.of_method rfl) (stands keyFits keyStart after within)
          exact lead.method function rfl keyStart ordered (after.trans params) fun _ => .inr
        | _ => simp at shape
      | cons => simp at shape

lemma walkParts_surveys (site : Site) (shape : Shape) (span : Span) (before : Nat) (parts : List Expr)
    (reached : exprsReach setting.source parts low = some high)
    (plain : ∀ b a, b + a + 1 = before + parts.length → (partSite site shape span b a).context = .expression) :
    Surveys setting [] [] anywhere low builder high (walkParts setting site shape span before parts builder) := by
  cases parts with
  | nil => exact .stop reached
  | cons part rest =>
    simp only [exprsReach] at reached
    obtain ⟨middle,head,tail⟩ := bind_eq_some_iff.1 reached
    refine (walkExpr_surveys _ part head (.whole (plain before rest.length ?_))).andThen
      (walkParts_surveys site shape span (before + 1) rest tail fun b a total => plain b a ?_)
    · rw [length_cons]
      omega
    · rw [length_cons]
      omega

lemma walkExprs_surveys (values : List Expr) (reached : exprsReach setting.source values low = some high) :
    Surveys setting [] [] anywhere low builder high (walkExprs setting values builder) := by
  cases values with
  | nil => exact .stop reached
  | cons value rest => exact .bind reached (walkExpr_surveys {} value · (.whole rfl)) (walkExprs_surveys rest ·)

lemma walkInitial_surveys (site : Site) (plain : site.context = .expression) (values : List Expr)
    (reached : exprsReach setting.source values low = some high) :
    Surveys setting [] [] anywhere low builder high (walkInitial setting site values builder) := by
  cases values with
  | nil => exact .stop reached
  | cons value rest =>
    exact .bind reached (walkExpr_surveys site value · (.whole plain)) (walkInitial_surveys site plain rest ·)

lemma walkPattern_surveys (pattern : Pattern) (reached : pattern.reach setting.source low = some high) :
    Surveys setting [] [] anywhere low builder high (walkPattern setting pattern builder) := by
  cases pattern with
  | bind id =>
    obtain ⟨rfl,start,fits⟩ := reach_eq_some.1 reached
    exact .done (start.trans (fits_iff.1 fits).1)
  | hole => exact .stop reached
  | object fields => exact walkPatterns_surveys fields reached
  | array elements => exact walkPatterns_surveys elements reached
  | rest pattern => exact walkPattern_surveys pattern reached
  | field key keyParts value => exact .bind reached (walkExprs_surveys keyParts ·) (walkPattern_surveys value ·)
  | slot decorators pattern initial =>
    exact .bind reached (walkExprs_surveys decorators ·) fun rest =>
      .bind rest (walkPattern_surveys pattern ·) (walkExprs_surveys initial ·)

lemma walkPatterns_surveys (patterns : List Pattern) (reached : patternsReach setting.source patterns low = some high) :
    Surveys setting [] [] anywhere low builder high (walkPatterns setting patterns builder) := by
  cases patterns with
  | nil => exact .stop reached
  | cons pattern others => exact .bind reached (walkPattern_surveys pattern ·) (walkPatterns_surveys others ·)

lemma walkSlots_surveys (slots : List Pattern) (reached : patternsReach setting.source slots low = some high) :
    Surveys setting [] [] anywhere low builder high (walkSlots setting slots builder) := by
  cases slots with
  | nil => exact .stop reached
  | cons slot others =>
    cases slot with
    | slot decorators pattern initial =>
      refine .bind reached (fun head => ?_) (walkSlots_surveys others ·)
      exact .bind head (walkExprs_surveys decorators ·) fun rest =>
        .bind rest (walkPattern_surveys pattern ·) (walkInitial_surveys _ (initialSite_context pattern) initial ·)
    | _ => exact .bind reached (walkPattern_surveys _ ·) (walkSlots_surveys others ·)

lemma walkFunction_surveys (site : Site) (literal : Func) {start stop : Nat}
    (reached : literal.reach setting.source start = some stop)
    (allows : site.Allows builder points) (stands : site.context.Stands setting.source literal.head.span low high) :
    Surveys setting points [] (site.context.Covers literal.head.span literal.head.paramsStart) low builder
      high (walkFunction setting site literal builder) := by
  obtain ⟨head,params,body⟩ := literal
  obtain ⟨-,-,fits,opened,cuts,middle,last,paramsReached,bodyReached,within⟩ := Func.reach_eq_some reached
  have ⟨lower,higher⟩ := stands.bounds
  have ordered : low ≤ high := lower.trans ((fits_iff.1 fits).1.trans higher)
  have inside := fun entered => (Surveys.parts (walkPatterns_surveys params paramsReached)
    (walkStmts_surveys .nested body bodyReached · nofun) entered).widen le_rfl within
  -- the parameters and the body are walked alike, whether or not a closure is made
  have named := fun registered (entered : Builder) =>
    (Surveys.declareFunctionName site registered builder.current head).andThen
      (inside (declareFunctionName site registered builder.current head entered))
  simp only [walkFunction]
  split
  · split
    · exact (Surveys.declareOwn builder.current head.name).longer ordered
    · exact .done ordered
  · split
    · exact .function (show LiteralKind.function ≠ .classLiteral by decide) allows stands fits opened cuts (named _ _)
    · exact (Surveys.nested site.role head.span (named false _)).sealed.relax
        (fun _ start _ _ _ => .inr (.inr start)) (lower.trans opened) higher

lemma walkArrow_surveys (site : Site) (literal : Func) {start stop : Nat}
    (reached : literal.reach setting.source start = some stop)
    (allows : site.Allows builder points) (stands : site.context.Stands setting.source literal.head.span low high) :
    Surveys setting points [] (site.context.Covers literal.head.span literal.head.paramsStart) low builder
      high (walkArrow setting site literal builder) := by
  obtain ⟨head,params,body⟩ := literal
  obtain ⟨-,-,fits,opened,cuts,middle,last,paramsReached,bodyReached,within⟩ := Func.reach_eq_some reached
  have ⟨lower,higher⟩ := stands.bounds
  have inside := fun entered => (Surveys.parts (walkPatterns_surveys params paramsReached)
    (walkStmts_surveys .nested body bodyReached · nofun) entered).widen le_rfl within
  simp only [walkArrow]
  split
  · exact (Surveys.nested .arrow head.span (inside _)).sealed.relax
      (fun _ start _ _ _ => .inr (.inr start)) (lower.trans opened) higher
  · exact .function (show LiteralKind.arrow ≠ .classLiteral by decide) allows stands fits opened cuts (inside _)

lemma walkDecorators_surveys (first start : Nat) (decorators : List Expr)
    (reached : decoratorsReach setting.source first start decorators low = some high) :
    Surveys setting [] [] (fun span => span.stop ≤ first ∨ classNameOffset setting.source start ≤ span.start)
      low builder high (walkExprs setting decorators builder) := by
  cases decorators with
  | nil => exact .stop reached
  | cons decorator rest =>
    simp only [decoratorsReach] at reached
    split at reached
    · rename_i front
      obtain ⟨middle,head,tail⟩ := bind_eq_some_iff.1 reached
      rw [← (Expr.reach_bounds head).1] at front
      exact ((walkExpr_surveys {} decorator head (.whole rfl)).loosen fun _ _ _ stop _ =>
        .inl (stop.trans front)).andThen (walkDecorators_surveys first start rest tail)
    · split at reached
      · cases reached
      rename_i closed
      have name : classNameOffset setting.source start = start := if_neg closed
      obtain ⟨middle,head,tail⟩ := bind_eq_some_iff.1 reached
      exact ((walkExpr_surveys {} decorator head (.whole rfl)).andThen (walkExprs_surveys rest tail)).relax
        (fun _ after _ _ _ => .inr (name.le.trans ((Nat.le_max_right ..).trans after)))
        (Nat.le_max_left ..) le_rfl

lemma walkClass_surveys (site : Site) (literal : ClassLiteral) {bottom first stop : Nat}
    (reached : literal.reach setting.source bottom first = some stop) (allows : site.Allows builder points)
    (stands : site.context.Stands setting.source literal.head.span low high)
    (noMethod : site.context.isMethod = false) (exported : ∀ statement isDeclaration,
    site.context = .defaultExport statement isDeclaration → first ≤ statement.start) (lower : low ≤ bottom) :
    Surveys setting points [] (fun span => span.stop ≤ first ∨
      site.context.Covers literal.head.span (classNameOffset setting.source literal.head.span.start) span)
      low builder high (walkClass setting site literal builder) := by
  obtain ⟨head,decorators,base,members⟩ := literal
  obtain ⟨-,start,after,fits,decorated,extended,last,decorates,extending,membersReached,within⟩ :=
    ClassLiteral.reach_eq_some reached
  have ⟨lower',higher⟩ := stands.bounds
  have ordered : low ≤ high := lower'.trans ((fits_iff.1 fits).1.trans higher)
  simp only [walkClass]
  split
  · split
    · exact (Surveys.declareOwn builder.current head.name).longer ordered
    · exact .done ordered
  · have decorating := @walkDecorators_surveys _ _ (builder.push .classBody head.span)
      first head.span.start decorators decorates
    have extension := fun builder => @walkExprs_surveys _ _ builder base extending
    have extends_ : ∀ builder, Surveys setting [] [] (fun span => span.stop ≤ first ∨
        classNameOffset setting.source head.span.start ≤ span.start) decorated builder extended _ :=
      fun builder => (extension builder).relax
        (fun _ after _ _ _ => .inr ((Nat.le_max_right ..).trans after)) (Nat.le_max_left ..)
        le_rfl
    have named : classNameOffset setting.source head.span.start ≤ extended :=
      (Nat.le_max_right ..).trans (extension builder).ordered
    have rest : ∀ named : Builder, Surveys setting [] [] anywhere extended named head.span.stop
        (walkMembers setting members (named.declareOwn named.current head.name)) := fun named =>
      (Surveys.declareOwn named.current head.name).andThen ((walkMembers_surveys members membersReached).longer within)
    refine .class allows stands noMethod fits after exported lower named (decorating.andThen (extends_ _))
      (.andThen (?_ : Surveys setting [] [] anywhere extended _ extended _) (rest _))
    split
    · exact .declareOwn builder.current head.name
    · exact .done le_rfl

lemma walkMembers_surveys (members : List Member) (reached : membersReach setting.source members low = some high) :
    Surveys setting [] [] anywhere low builder high (walkMembers setting members builder) := by
  cases members with
  | nil => exact .stop reached
  | cons member rest => exact .bind reached (walkMember_surveys member ·) (walkMembers_surveys rest ·)

lemma walkMember_surveys (member : Member) (reached : member.reach setting.source low = some high) :
    Surveys setting [] [] anywhere low builder high (walkMember setting member builder) := by
  cases member with
  | method kind isStatic decorators key keyParts literal span =>
    simp only [Member.reach] at reached
    obtain ⟨rfl,start,fits,inner,inside,within⟩ := around_eq_some.1 reached
    obtain ⟨named,decorated,inside⟩ := bind_eq_some_iff.1 inside
    obtain ⟨middle,keyReached,literalReached⟩ := bind_eq_some_iff.1 inside
    obtain ⟨rfl,keyStart,keyFits,last,partsReached,partsWithin⟩ := around_eq_some.1 keyReached
    obtain ⟨rfl,after,literalFits,params⟩ := Func.reach_bounds literalReached
    have ordered := (fits_iff.1 keyFits).1
    have ⟨whole,cuts,ends⟩ := fits_iff.1 fits
    have beyond : key.span.stop ≤ span.stop := after.trans ((fits_iff.1 literalFits).1.trans within)
    have decorating := @walkExprs_surveys _ _ builder decorators decorated
    have naming := @walkExprs_surveys _ _ (walkExprs setting decorators builder) keyParts partsReached
    -- what is replaced starts where the decorators end
    obtain ⟨same,named_cuts⟩ := exprsReach_last cuts decorated
    have replaced : memberSpan decorators span = ⟨named,span.stop⟩ := by rw [memberSpan,← same]
    have lead : Surveys setting [] [] (fun other => other.stop ≤ named ∨
        key.span.start ≤ other.start ∧ other.stop ≤ key.span.stop) span.start builder span.stop
        (walkExprs setting keyParts (walkExprs setting decorators builder)) :=
      (decorating.loosen fun _ _ _ stop _ => .inl stop).andThen
        (naming.relax (fun _ start _ stop _ => .inr ⟨start,stop.trans partsWithin⟩) keyStart
          (partsWithin.trans beyond))
    have stands : (classMethod (memberSpan decorators span) key.span key.isComputed
        isStatic).Stands setting.source literal.head.span span.start span.stop := by
      rw [replaced]
      exact ⟨fits_iff.2 ⟨keyStart.trans (ordered.trans beyond),named_cuts,ends⟩,
        keyFits,decorating.ordered,keyStart,after,within,le_rfl⟩
    let site : Site :=
      { context := .classMethod (memberSpan decorators span) key.span key.isComputed isStatic
        name := key.text?
        role := .method
        candidate := kind == .method }
    have allows : site.Allows (walkExprs setting keyParts (walkExprs setting decorators builder)) [] := .of_method rfl
    have function := walkFunction_surveys site literal literalReached allows stands
    have ranges : site.context.ranges literal.head.span literal.head.paramsStart =
        [(⟨named,key.span.start⟩, false),(⟨key.span.stop,span.stop⟩, true)] := by
      simp only [site,replaced,ClosureForm.ranges]
    exact (lead.method function ranges keyStart ordered (after.trans params) fun _ => id).widen start le_rfl
  | field decorators key keyParts initial span =>
    simp only [Member.reach] at reached
    obtain ⟨rfl,start,fits,inner,inside,within⟩ := around_eq_some.1 reached
    obtain ⟨middle,keyReached,initialReached⟩ := bind_eq_some_iff.1 inside
    have before := @walkExprs_surveys _ _ builder keyParts keyReached
    simp only [walkMember]
    split
    · exact before.widen start ((@walkExprs_surveys _ _ builder initial initialReached).ordered.trans within)
    · exact (before.andThen ((walkInitial_surveys { name := key.text? } rfl initial
        initialReached).nested .classMember span)).widen start within
  | block body span =>
    obtain ⟨rfl,start,fits,inner,inside,within⟩ := around_eq_some.1 reached
    exact ((Surveys.body (walkStmts_surveys .nested body inside · nofun)).nested .classMember span).widen start within
  | signature => exact .stop reached

lemma walkStmts_surveys (level : Level) (statements : List Stmt) {builder : Builder}
    (reached : statementsReach setting.source statements low = some high)
    (listed : builder.lists.head?.getD [] ⊆ points)
    (ground : level = .top ∨ level = .exported → builder.current = root) :
    Surveys setting points (starts statements) anywhere low builder high
      (walkStmts setting level statements builder) := by
  cases statements with
  | nil => exact .stop reached
  | cons statement rest =>
    simp only [statementsReach] at reached
    obtain ⟨middle,head,tail⟩ := bind_eq_some_iff.1 reached
    have one := walkStmt_surveys level statement head listed ground
    exact one.andThen (walkStmts_surveys level rest tail (one.walk.lists ▸ listed) (one.walk.frame.2 ▸ ground))

lemma walkStmt_surveys (level : Level) (statement : Stmt) {builder : Builder}
    (reached : statement.reach setting.source low = some high)
    (listed : builder.lists.head?.getD [] ⊆ points)
    (ground : level = .top ∨ level = .exported → builder.current = root) :
    Surveys setting points [statement.span.start] anywhere low builder high
      (walkStmt setting level statement builder) := by
  cases statement with
  | expression value span => exact .around reached fun inside => (walkExpr_surveys {} value inside (.whole rfl)).sealed
  | block body span => exact .around reached fun inside => .body (walkStmts_surveys .nested body inside · nofun)
  | variableDecl kind slots span =>
    exact .around reached fun inside => (Surveys.declareAll _ _).andThen (walkSlots_surveys slots inside).sealed
  | function literal =>
    obtain ⟨rfl,start,fits,-⟩ := Func.reach_bounds reached
    exact .statement fits start (walkFunction_surveys _ literal reached (declarationSite_allows listed ground)
      (declarationSite_stands level le_rfl le_rfl)) le_rfl
  | classDecl literal =>
    obtain ⟨rfl,start,-,fits⟩ := ClassLiteral.reach_bounds reached
    have ⟨ordered,cuts,_⟩ := fits_iff.1 fits
    have walked := walkClass_surveys (declarationSite level literal.head.span) literal reached
      (declarationSite_allows listed ground) (declarationSite_stands level start le_rfl)
      (declarationSite_noMethod level _) (fun _ _ other => absurd other (declarationSite_stays level _))
      le_rfl
    exact walked.declaredClass ordered (le_classNameOffset ..) cuts start ordered (Nat.zero_le _) le_rfl
  | returns value span => exact .around reached fun inside => (walkExprs_surveys value inside).sealed
  | loop parts span =>
    exact .around reached fun inside =>
      (@walkStmts_surveys _ _ _ .nested parts (builder.push .loop span) inside listed nofun).nested _ _
  | compound parts span => exact .around reached fun inside => walkStmts_surveys .nested parts inside listed nofun
  | case test body span =>
    exact .around reached fun inside => .bind inside (walkExprs_surveys test · |>.sealed)
      fun bodyReached => .body (walkStmts_surveys .nested body bodyReached · nofun)
  | handler pattern body span =>
    apply Surveys.around reached
    intro _ inside
    obtain ⟨middle,patternReached,bodyReached⟩ := bind_eq_some_iff.1 inside
    have before : Surveys setting points [] anywhere span.start builder middle _ :=
      (Surveys.declareAll builder.current (Pattern.namesOfAll pattern)).andThen
        (walkPatterns_surveys pattern patternReached).sealed
    exact before.andThen (walkStmt_surveys .nested body bodyReached (before.walk.lists ▸ listed) nofun)
  | exportNames locals exported span =>
    simp only [walkStmt]
    split
    · exact .around reached fun inside => (Surveys.exports locals).andThen (.names .plain locals inside)
    · exact .around reached fun inside => .names .plain locals inside
  | exportDeclaration declaration span =>
    rw [Stmt.reach_exportDeclaration] at reached
    obtain ⟨rfl,lower,fits,last,inside,within⟩ := upTo_eq_some.1 reached
    have ⟨ordered,cuts,_⟩ := fits_iff.1 fits
    have ground' : (if level == .top then Level.exported else .loose) = .top ∨
        (if level == .top then Level.exported else .loose) = .exported →
        builder.current = root := by
      cases level with
      | top => exact fun _ => ground (.inl rfl)
      | _ => exact nofun
    rcases Stmt.reachExported_cases inside with ⟨exported,same,classReached⟩ | plain
    · cases declaration with
      | classDecl literal =>
        injection same with same
        rw [← same] at classReached
        obtain ⟨rfl,start,after,literalFits⟩ := ClassLiteral.reach_bounds classReached
        have walked := walkClass_surveys
          (declarationSite (if level == .top then .exported else .loose) literal.head.span) literal
          classReached (declarationSite_allows listed ground')
          (declarationSite_stands _ start within) (declarationSite_noMethod ..)
          (fun _ _ other => absurd other (declarationSite_stays _ _)) le_rfl
        exact walked.declaredClass (fits_iff.1 literalFits).1 (le_classNameOffset ..) cuts lower ordered le_rfl after
      | _ => cases same
    · exact .statement fits lower (walkStmt_surveys _ declaration plain listed ground') within
  | exportDefault value span =>
    rw [Stmt.reach_exportDefault] at reached
    split at reached
    · rename_i before
      obtain ⟨rfl,lower,fits,last,inside,within⟩ := upTo_eq_some.1 reached
      exact walkDefault_surveys span value fits lower before inside within
    · cases reached
  | ambient body span =>
    simp only [walkStmt]
    split
    · obtain ⟨rfl,start,fits,-⟩ := around_eq_some.1 reached
      exact .quietStatement fits start (.done le_rfl)
    · exact .around reached fun inside => .body (walkStmts_surveys .nested body inside · nofun)
  | typeOnly body span =>
    simp only [walkStmt]
    split
    · exact .around reached fun inside => .body (walkStmts_surveys .nested body inside · nofun)
    · obtain ⟨rfl,start,fits,-⟩ := around_eq_some.1 reached
      exact .quietStatement fits start (.done le_rfl)
  | enumeration id initials span =>
    simp only [walkStmt]
    split
    · exact .around reached fun inside => (walkExprs_surveys initials inside).sealed
    · obtain ⟨rfl,start,fits,-⟩ := around_eq_some.1 reached
      exact .quietStatement fits start (.declareIn builder.current id.name)
  | imports ids span =>
    obtain ⟨rfl,start,fits⟩ := reach_eq_some.1 reached
    exact .quietStatement fits start (.imports ids)
  | reexport _ span =>
    obtain ⟨rfl,start,fits⟩ := reach_eq_some.1 reached
    exact .quietStatement fits start (.done le_rfl)

lemma walkDefault_surveys (statement : Span) (value : Stmt) {low last : Nat}
    (fits : statement.fits setting.source = true) (lower : low ≤ statement.start)
    (before : statement.start < value.span.start)
    (reached : value.reachExported setting.source low statement.start = some last) (within : last ≤ statement.stop) :
    Surveys setting points [statement.start] anywhere low builder statement.stop
      (walkDefault setting statement value builder) := by
  have ⟨ordered,cuts,_⟩ := fits_iff.1 fits
  have allows : Site.Allows { context := .defaultExport statement true } builder points :=
    ⟨fun _ => rfl,nil_subset _,nofun⟩
  cases value with
  | function literal =>
    obtain ⟨rfl,start,-⟩ := Func.reach_bounds reached
    exact .statement fits lower (walkFunction_surveys _ literal reached allows
      ⟨fits,le_rfl,before,within,le_rfl⟩) le_rfl
  | classDecl literal =>
    obtain ⟨rfl,start,after,-⟩ := ClassLiteral.reach_bounds reached
    have walked := walkClass_surveys _ literal reached allows ⟨fits,lower,before,within,le_rfl⟩ rfl
      (fun _ _ same => by cases same; exact le_rfl) le_rfl
    have around : Surveys setting points [] (fun span => span.stop ≤ statement.start ∨
        statement.start ≤ span.start) low builder statement.stop
        (walkDefault setting statement (.classDecl literal) builder) := by
      refine walked.loosen fun span _ _ _ stands => ?_
      refine stands.imp_right fun covers => ?_
      rcases covers with ⟨taken,listed⟩ | ⟨_,exports⟩ | behind
      · simp only [ClosureForm.ranges,mem_cons,Prod.mk.injEq,not_mem_nil,or_false] at listed
        rcases listed with ⟨rfl,-⟩ | ⟨rfl,-⟩ | ⟨rfl,-⟩
        · exact le_rfl
        · exact after.trans (le_classNameOffset ..)
        · exact ordered
      · cases exports
        exact le_rfl
      · exact after.trans ((le_classNameOffset ..).trans behind)
    exact (around.point cuts lower ordered (fun _ => id) (.inl le_rfl)).loosen fun _ _ _ _ _ => trivial
  | expression value span =>
    obtain ⟨rfl,start,-,inner,inside,innerWithin⟩ := around_eq_some.1 reached
    have frames : Site.Frames { context := .defaultExport statement false } setting.source span.start inner
        statement.start statement.stop :=
      ⟨fits,le_rfl,before,innerWithin.trans within,le_rfl⟩
    exact .statement fits lower (walkExpr_surveys _ value inside frames).sealed le_rfl
  | _ => exact .quietStatement fits lower (.done le_rfl)

end
end

/-! ### Programs -/

/-- Captures do not matter to where closures stand. -/
lemma layout_bare {chain : Nat → List Nat} {base bound current : Nat} {found : Finds} :
    Layout source chain points base bound current low high { found with closures := found.closures.map Closure.bare } ↔
      Layout source chain points base bound current low high found := by
  have needed : Finds.needed source { found with closures := found.closures.map Closure.bare } =
      found.needed source := congrArg (_ ++ ·) (flatMap_map ..)
  have covered (closure : Closure) : closure.bare.Covered source ↔ closure.Covered source :=
    ⟨fun covered => { covered with },fun covered => { covered with }⟩
  have place {span : Span} {scope} :
      Finds.Place { found with closures := found.closures.map Closure.bare } span scope ↔ found.Place span scope := by
    constructor
    · rintro (listed | ⟨listed,exports⟩)
      · exact .mark listed
      · obtain ⟨closure,known,rfl⟩ := mem_map.1 listed
        exact @Finds.Place.statement found closure _ known exports
    · rintro (listed | ⟨listed,exports⟩)
      · exact .mark listed
      · exact @Finds.Place.statement _ (Closure.bare _) _ (mem_map_of_mem listed) exports
  simp only [layout_iff,needed,covered,place,Finds.Offers,List.mem_map,exists_exists_and_eq_and,forall_exists_index,
    and_imp,forall_apply_eq_imp_iff₂]
  rfl

def Scoping.LaidOut (source : List Char) (tree : Scoping) (marks : List Mark) : Prop :=
  ∃ high, Layout source tree.chain [] 1 tree.scopes.length root 0 high ⟨tree.rootReferences,tree.closures,marks⟩

lemma analyze_laidOut (setting : Selecting) {program : Program} (fits : program.fits setting.source = true) :
    ∃ marks, (analyze setting program).tree.bindAll.LaidOut setting.source marks := by
  obtain ⟨high,reached⟩ := isSome_iff_exists.1 fits
  obtain ⟨rfl,-,-,last,inside,within⟩ := around_eq_some.1 reached
  let entered : Builder := { tree := ofProgram program.span }
  let listing : Builder := { entered with lists := starts program.body :: entered.lists }
  have walked := @walkStmts_surveys setting _ _ _ .top program.body listing inside (Subset.refl _) fun _ => rfl
  have surveys : Surveys setting [] [] anywhere program.span.start entered last
      (entered.withList (starts program.body) (walkStmts setting .top program.body)) :=
    walked.list (Subset.refl _)
  obtain ⟨found,⟨closures,references,layout⟩,-⟩ := surveys.finds (ofProgram_sound program.span)
  -- captures are filled in after the walk, and change nothing that a layout says
  have same := bindAll_bare (analyze setting program).tree
  have kept : (analyze setting program).tree.bindAll.closures.map Closure.bare =
      found.closures.map Closure.bare := (congrArg Scoping.closures same).trans (congrArg _ closures)
  have all : found.references = (analyze setting program).tree.bindAll.rootReferences :=
    references.symm.trans (referencesIn_congr same root).symm
  have chains : ∀ scope, (analyze setting program).tree.bindAll.chain scope =
      (analyze setting program).tree.chain scope := fun scope => by
    rw [← chain_bare,same,chain_bare]
  refine ⟨found.marks,last,?_⟩
  rw [← all,length_of_bare_eq same]
  have whole := (layout.widen (Subset.refl _) (Nat.zero_le _) le_rfl).congr fun scope _ => chains scope
  exact layout_bare.1 (kept ▸ layout_bare.2 whole)

end Resumable
