import Resumable.Hoisting.Regions
import Resumable.Proofs.Spans
import Mathlib.Data.List.Perm.Subperm

/-! What a stretch of text holds that edits may replace. A `Mark` is a span with the scope that it stands in; the
mark of a literal that is taken out is a hole. Marks are `Apart` if their spans do not run into each other, or one
of them stands in the hole that the other makes. A `Layout` collects the marks of a stretch, with the references and
closures that they are made for, and is put together as the walk goes. -/
namespace Resumable
open Script List
variable {span : Span} {closure : Closure}

/-! ### Spans and marks -/

def Script.Span.Clear (a b : Span) : Prop := a.stop ≤ b.start ∨ b.stop ≤ a.start

lemma Script.Span.Clear.symm {a b : Span} (clear : a.Clear b) : b.Clear a := Or.symm clear

/-- A place in the text where an edit may be made. -/
structure Mark where
  span : Span
  scope : ScopeIndex
  /-- The scope of the literal that is taken out with the span. -/
  hole : Option ScopeIndex := none

/-- Two marks that cannot clash: they are clear of each other, or one is in the hole of the other. -/
def Mark.Apart (chain : Nat → List Nat) (a b : Mark) : Prop :=
  a.span.Clear b.span ∨ (∃ scope ∈ a.hole, scope ∈ chain b.scope) ∨ ∃ scope ∈ b.hole, scope ∈ chain a.scope

lemma Mark.Apart.symm {chain : Nat → List Nat} {a b : Mark} (apart : a.Apart chain b) : b.Apart chain a :=
  apart.imp Span.Clear.symm Or.symm

def Reference.mark (reference : Reference) : Mark := ⟨reference.span,reference.scope,none⟩

/-- The text that goes into the factory of a closure. -/
def Closure.slice (closure : Closure) : Span :=
  if closure.context.isMethod then ⟨closure.paramsStart,closure.span.stop⟩ else closure.span

/-- The spans that edits replace around a literal, each with whether it holds the literal. `name` is
where the literal could get a name. -/
def ClosureForm.ranges (form : ClosureForm) (literal : Span) (name : Nat) : List (Span × Bool) :=
  match form with
  | .expression => [(literal, true)]
  | .declaration false _ statement => [(statement, true)]
  | .objectMethod member key _ | .classMethod member key _ _ =>
    [(⟨member.start,key.start⟩, false),(⟨key.stop,member.stop⟩, true)]
  | .declaration true _ statement =>
    [(⟨statement.start,statement.start⟩, false),(⟨statement.stop,statement.stop⟩, false)]
  | .defaultExport statement true =>
    [(⟨statement.start,literal.start⟩, false),(⟨name,name⟩, false), (⟨statement.stop,statement.stop⟩, false)]
  | .defaultExport statement false => [(⟨statement.start,literal.start⟩, false),(⟨literal.stop,statement.stop⟩, false)]

def Closure.ranges (source : List Char) (closure : Closure) : List (Span × Bool) :=
  closure.context.ranges closure.span (nameOffset source closure)

def Closure.marks (source : List Char) (closure : Closure) : List Mark :=
  (closure.ranges source).map fun range => ⟨range.1,closure.parent,if range.2 then some closure.scope else none⟩

def Closure.Exports (closure : Closure) (statement : Span) : Prop :=
  ∃ isDeclaration, closure.context = .defaultExport statement isDeclaration

lemma Closure.Exports.stays (exports : closure.Exports statement) : closure.isLifted = false := by
  obtain ⟨isDeclaration,context⟩ := exports
  rw [Closure.isLifted,context]
  rfl

structure Closure.Covered (source : List Char) (closure : Closure) : Prop where
  fits : closure.slice.fits source = true
  taken : ∃ range, (range, true) ∈ closure.ranges source ∧ range.holds closure.slice = true
  plain : closure.kind = .classLiteral → closure.ranges source = [(closure.span, true)]

/-- Whether a place lies in the text that goes into the factory of a closure. The decorators of an
exported class may come before its span. -/
def Closure.Takes (closure : Closure) (span : Span) : Prop :=
  closure.slice.holds span = true ∨ closure.kind = .classLiteral ∧ span.stop ≤ closure.span.start

/-- The scopes from `base` up to `bound` have been opened within `current`, and a scope is that one or
one of them. -/
structure Hosts (chain : Nat → List Nat) (base bound current scope : Nat) : Prop where
  lt : scope < bound
  outer : ∀ other ∈ chain current, other ∈ chain scope
  inner : ∀ other ∈ chain scope, other ∈ chain current ∨ base ≤ other ∧ other < bound

namespace Hosts

variable {chain : Nat → List Nat} {base middle bound current scope other : Nat}

lemma later (hosts : Hosts chain base middle current scope) (more : middle ≤ bound) :
    Hosts chain base bound current scope :=
  ⟨Nat.lt_of_lt_of_le hosts.lt more,hosts.outer,fun other around =>
    (hosts.inner other around).imp_right (And.imp_right (Nat.lt_of_lt_of_le · more))⟩

lemma earlier (hosts : Hosts chain middle bound current scope) (more : base ≤ middle) :
    Hosts chain base bound current scope :=
  ⟨hosts.lt,hosts.outer,fun other around => (hosts.inner other around).imp_right (And.imp_left (Nat.le_trans more))⟩

lemma not_later (hosts : Hosts chain base middle current scope)
    (below : ∀ other ∈ chain current, other < base) (ordered : base ≤ middle)
    (beyond : middle ≤ other) : other ∉ chain scope := by
  intro around
  rcases hosts.inner other around with outer | within
  · have := below other outer
    omega
  · omega

lemma not_earlier (hosts : Hosts chain middle bound current scope)
    (below : ∀ other ∈ chain current, other < base) (opened : base ≤ other) (closed : other < middle) :
    other ∉ chain scope := by
  intro around
  rcases hosts.inner other around with outer | within
  · have := below other outer
    omega
  · omega

end Hosts

/-! ### Layouts -/

/-- References and closures that have been met, and the marks of the text that they were met in. -/
structure Finds where
  references : List Reference := []
  closures : List Closure := []
  marks : List Mark := []

def Finds.append (first second : Finds) : Finds :=
  ⟨first.references ++ second.references,first.closures ++ second.closures,
    first.marks ++ second.marks⟩

def Finds.needed (source : List Char) (found : Finds) : List Mark :=
  found.references.map Reference.mark ++ found.closures.flatMap (Closure.marks source)

lemma Finds.needed_append (source : List Char) (first second : Finds) :
    ((first.append second).needed source).Perm (first.needed source ++ second.needed source) := by
  simp only [needed,append,map_append,flatMap_append,append_assoc]
  exact (perm_append_comm_assoc ..).append_left _

/-- What stands where in which scope: the marks, and the statements of default exports. -/
inductive Finds.Place (found : Finds) : Span → Nat → Prop where
  | mark {mark : Mark} (listed : mark ∈ found.marks) : Place found mark.span mark.scope
  | statement {closure : Closure} {statement : Span} (listed : closure ∈ found.closures)
      (exports : closure.Exports statement) : Place found statement closure.parent

variable {scope : Nat} {found : Finds}

lemma Finds.Place.not_nothing (place : Place {} span scope) : False := by
  cases place with
  | mark listed => exact not_mem_nil listed
  | statement listed => exact not_mem_nil listed

lemma Finds.Place.with_references (place : found.Place span scope) (references : List Reference) :
    Place { found with references } span scope := by
  cases place with
  | mark listed => exact .mark listed
  | statement listed exports => exact .statement listed exports

lemma Finds.Place.of_append {first second : Finds} (place : (first.append second).Place span scope) :
    first.Place span scope ∨ second.Place span scope := by
  cases place with
  | mark listed => exact (mem_append.1 listed).imp .mark .mark
  | statement listed exports => exact (mem_append.1 listed).imp (.statement · exports) (.statement · exports)

lemma Finds.Place.of_marked {mark : Mark} (place : Place { found with marks := mark :: found.marks } span scope) :
    span = mark.span ∧ scope = mark.scope ∨ found.Place span scope := by
  cases place with
  | mark listed =>
    rcases mem_cons.1 listed with rfl | listed
    · exact .inl ⟨rfl,rfl⟩
    · exact .inr (.mark listed)
  | statement listed exports => exact .inr (.statement listed exports)

/-- A place in front of a statement, at which something can be made for a scope. -/
def Finds.Offers (chain : Nat → List Nat) (found : Finds) (point scope : Nat) :
    Prop :=
  ∃ mark ∈ found.marks, mark.span = ⟨point,point⟩ ∧ mark.scope ∈ chain scope ∧
    ∀ other ∈ found.closures, other.scope ∈ chain scope → other.scope ∈ chain mark.scope

/-- What has been found between two offsets in `current` and the scopes from `base` up to `bound`.
`points` are where statements start in the list that is being walked. -/
@[mk_iff] structure Layout (source : List Char) (chain : Nat → List Nat) (points : List Nat)
    (base bound current : Nat) (low high : Nat) (found : Finds) : Prop where
  self : current ∈ chain current
  below : ∀ other ∈ chain current, other < base
  opened : base ≤ bound
  ordered : low ≤ high
  hosted : ∀ mark ∈ found.marks, Hosts chain base bound current mark.scope
  within : ∀ {span scope}, found.Place span scope → span.fits source = true ∧ low ≤ span.start ∧ span.stop ≤ high
  apart : found.marks.Pairwise (Mark.Apart chain)
  holes : ∀ mark ∈ found.marks, ∀ scope ∈ mark.hole, ∃ closure ∈ found.closures,
    closure.isLifted = true ∧ closure.scope = scope ∧ mark ∈ closure.marks source
  backed : (found.needed source).Subperm found.marks
  made : ∀ closure ∈ found.closures, base ≤ closure.scope ∧ closure.scope < bound ∧
    Hosts chain base bound current closure.parent
  covered : ∀ closure ∈ found.closures, closure.isLifted = true → closure.Covered source
  takes : ∀ closure ∈ found.closures, closure.isLifted = true → ∀ {span scope},
    found.Place span scope → closure.scope ∈ chain scope → closure.Takes span
  headed : ∀ closure ∈ found.closures, ∀ statement, closure.Exports statement →
    statement.start < closure.span.start ∧ ∀ range ∈ closure.ranges source, statement.holds range.1 = true
  /-- A declaration can move to a point of its own list, with no closure in between. -/
  offered : ∀ closure ∈ found.closures, ∀ point ∈ closure.hoistPoints,
    (point ∈ points ∧ ∀ other ∈ found.closures, other.scope ∉ chain closure.parent) ∨
      found.Offers chain point closure.parent
  grounded : ∀ closure ∈ found.closures, ∀ exported statement,
    closure.context = .declaration true exported statement → closure.parent = Scoping.root

namespace Layout

variable {source : List Char} {chain : Nat → List Nat} {points : List Nat}
  {base middle bound current : Nat} {low high : Nat} {found first second : Finds}

lemma nothing (self : current ∈ chain current) (below : ∀ other ∈ chain current, other < base)
    (opened : base ≤ bound) (ordered : low ≤ high) :
    Layout source chain points base bound current low high {} where
  self := self
  below := below
  opened := opened
  ordered := ordered
  hosted _ marked := absurd marked not_mem_nil
  within place := place.not_nothing.elim
  apart := .nil
  holes _ marked := absurd marked not_mem_nil
  backed := nil_subperm
  made _ member := absurd member not_mem_nil
  covered _ member := absurd member not_mem_nil
  takes _ member := absurd member not_mem_nil
  headed _ member := absurd member not_mem_nil
  offered _ member := absurd member not_mem_nil
  grounded _ member := absurd member not_mem_nil

section
variable (layout : Layout source chain points base bound current low high found)
include layout

lemma lt : current < bound := Nat.lt_of_lt_of_le (layout.below current layout.self) layout.opened

lemma hosts_self : Hosts chain base bound current current :=
  ⟨layout.lt,fun _ around => around,fun _ around => .inl around⟩

lemma hosts_place (place : found.Place span scope) : Hosts chain base bound current scope := by
  cases place with
  | mark listed => exact layout.hosted _ listed
  | statement listed => exact (layout.made _ listed).2.2

/-- Only the chains of scopes that have been opened matter. -/
lemma congr (same : ∀ scope, scope < bound → other scope = chain scope) :
    Layout source other points base bound current low high found := by
  have here := same current layout.lt
  have hosts : ∀ {scope}, Hosts chain base bound current scope → Hosts other base bound current scope :=
    fun hosts => ⟨hosts.lt,by rw [here,same _ hosts.lt]; exact hosts.outer,
      by rw [here,same _ hosts.lt]; exact hosts.inner⟩
  have ofMark : ∀ mark ∈ found.marks, other mark.scope = chain mark.scope := fun mark member =>
    same _ (layout.hosted mark member).lt
  have ofClosure : ∀ closure ∈ found.closures, other closure.parent = chain closure.parent :=
    fun closure member => same _ (layout.made closure member).2.2.lt
  refine { layout with
    self := here ▸ layout.self
    below := here ▸ layout.below
    hosted := fun mark member => hosts (layout.hosted mark member)
    apart := ?_
    made := fun closure member => (layout.made closure member).imp_right (And.imp_right hosts)
    takes := fun closure member lifted _ _ place around =>
      layout.takes closure member lifted place (same _ (layout.hosts_place place).lt ▸ around)
    offered := ?_ }
  · refine layout.apart.imp_of_mem fun {a b} ha hb apart => ?_
    rw [Mark.Apart,ofMark a ha,ofMark b hb]
    exact apart
  · intro closure member point offered
    rw [ofClosure closure member,Finds.Offers]
    refine (layout.offered closure member point offered).imp_right ?_
    rintro ⟨mark,marked,at_,around,between⟩
    rw [ofClosure closure member]
    exact ⟨mark,marked,at_,around,by rw [ofMark mark marked]; exact between⟩

lemma widen (more : ∀ point ∈ points, point ∈ points') (lower : low' ≤ low) (higher : high ≤ high') :
    Layout source chain points' base bound current low' high' found :=
  { layout with
    ordered := Nat.le_trans lower (Nat.le_trans layout.ordered higher)
    within := fun place =>
      have ⟨fits,start,stop⟩ := layout.within place
      ⟨fits,Nat.le_trans lower start,Nat.le_trans stop higher⟩
    offered := fun closure member point offered =>
      (layout.offered closure member point offered).imp_left (And.imp_left (more point)) }

end

lemma append (one : Layout source chain points base middle current low high first)
    (two : Layout source chain points middle bound current low high second)
    (clear : ∀ a ∈ first.marks, ∀ b ∈ second.marks, a.span.Clear b.span) :
    Layout source chain points base bound current low high (first.append second) := by
  have before : ∀ {scope other}, Hosts chain base middle current scope → middle ≤ other →
      other ∉ chain scope := fun hosts beyond => hosts.not_later one.below one.opened beyond
  have after : ∀ {scope other}, Hosts chain middle bound current scope → base ≤ other →
      other < middle → other ∉ chain scope := fun hosts => hosts.not_earlier one.below
  refine {
    self := one.self
    below := one.below
    opened := Nat.le_trans one.opened two.opened
    ordered := one.ordered
    hosted := fun mark member => ?_
    within := fun place => place.of_append.elim one.within two.within
    apart := pairwise_append.2 ⟨one.apart,two.apart,fun a ha b hb => .inl (clear a ha b hb)⟩
    holes := fun mark member scope hole => ?_
    backed := ?_
    made := fun closure member => ?_
    covered := fun closure member => (mem_append.1 member).elim (one.covered closure) (two.covered closure)
    takes := fun closure member lifted _ _ place around => ?_
    headed := fun closure member => (mem_append.1 member).elim (one.headed closure) (two.headed closure)
    offered := fun closure member point offered => ?_
    grounded := fun closure member => (mem_append.1 member).elim (one.grounded closure) (two.grounded closure) }
  · rcases mem_append.1 member with member | member
    · exact (one.hosted mark member).later two.opened
    · exact (two.hosted mark member).earlier one.opened
  · rcases mem_append.1 member with member | member
    · obtain ⟨closure,made,rest⟩ := one.holes mark member scope hole
      exact ⟨closure,mem_append_left _ made,rest⟩
    · obtain ⟨closure,made,rest⟩ := two.holes mark member scope hole
      exact ⟨closure,mem_append_right _ made,rest⟩
  · exact (Finds.needed_append source first second).subperm_right.2 (one.backed.append two.backed)
  · rcases mem_append.1 member with member | member
    · have ⟨low,high,hosts⟩ := one.made closure member
      exact ⟨low,Nat.lt_of_lt_of_le high two.opened,hosts.later two.opened⟩
    · have ⟨low,high,hosts⟩ := two.made closure member
      exact ⟨Nat.le_trans one.opened low,high,hosts.earlier one.opened⟩
  · rcases mem_append.1 member with member | member
    · have ⟨low,high,_⟩ := one.made closure member
      rcases place.of_append with place | place
      · exact one.takes closure member lifted place around
      · exact absurd around (after (two.hosts_place place) low high)
    · have ⟨low,_,_⟩ := two.made closure member
      rcases place.of_append with place | place
      · exact absurd around (before (one.hosts_place place) low)
      · exact two.takes closure member lifted place around
  · rcases mem_append.1 member with member | member
    · -- closures of the second stretch are not around those of the first
      have hosts := (one.made closure member).2.2
      have others : ∀ other ∈ second.closures, other.scope ∉ chain closure.parent :=
        fun other found => before hosts (two.made other found).1
      rcases one.offered closure member point offered with
        ⟨listed,alone⟩ | ⟨mark,marked,here,around,between⟩
      · exact .inl ⟨listed,fun other found => (mem_append.1 found).elim (alone other) (others other)⟩
      · refine .inr ⟨mark,mem_append_left _ marked,here,around,fun other found => ?_⟩
        exact (mem_append.1 found).elim (between other) fun found inside => absurd inside (others other found)
    · have hosts := (two.made closure member).2.2
      have others : ∀ other ∈ first.closures, other.scope ∉ chain closure.parent :=
        fun other found => after hosts (one.made other found).1 (one.made other found).2.1
      rcases two.offered closure member point offered with
        ⟨listed,alone⟩ | ⟨mark,marked,here,around,between⟩
      · exact .inl ⟨listed,fun other found => (mem_append.1 found).elim (others other) (alone other)⟩
      · refine .inr ⟨mark,mem_append_right _ marked,here,around,fun other found => ?_⟩
        exact (mem_append.1 found).elim (fun found inside => absurd inside (others other found)) (between other)

lemma mark (layout : Layout source chain points base bound current low high found)
    (fits : span.fits source = true) (lower : low ≤ span.start) (higher : span.stop ≤ high)
    (clear : ∀ mark ∈ found.marks, span.Clear mark.span) :
    Layout source chain points base bound current low high
      { found with marks := ⟨span,current,none⟩ :: found.marks } := by
  refine { layout with
    hosted := fun mark member => ?_
    within := fun place => ?_
    apart := pairwise_cons.2 ⟨fun mark member => .inl (clear mark member),layout.apart⟩
    holes := fun mark member scope hole => ?_
    backed := layout.backed.trans (sublist_cons_self _ _).subperm
    takes := fun closure member lifted _ _ place around => ?_
    offered := fun closure member point offered => ?_ }
  · rcases mem_cons.1 member with rfl | member
    · exact layout.hosts_self
    · exact layout.hosted mark member
  · rcases place.of_marked with ⟨rfl,-⟩ | place
    · exact ⟨fits,lower,higher⟩
    · exact layout.within place
  · rcases mem_cons.1 member with rfl | member
    · cases hole
    · exact layout.holes mark member scope hole
  · rcases place.of_marked with ⟨-,rfl⟩ | place
    · have := layout.below _ around
      exact absurd (layout.made closure member).1 (Nat.not_le_of_lt this)
    · exact layout.takes closure member lifted place around
  · refine (layout.offered closure member point offered).imp_right ?_
    rintro ⟨mark,marked,rest⟩
    exact ⟨mark,mem_cons_of_mem _ marked,rest⟩

lemma reference (layout : Layout source chain points base bound current low high {})
    {reference : Reference} (here : reference.scope = current)
    (fits : reference.span.fits source = true) (lower : low ≤ reference.span.start)
    (higher : reference.span.stop ≤ high) :
    Layout source chain points base bound current low high
      { references := [reference], marks := [reference.mark] } := by
  have marked := layout.mark fits lower higher (fun mark member => absurd member not_mem_nil)
  rw [← here] at marked ⊢
  exact { marked with
    within := fun place => marked.within (place.with_references [])
    takes := fun _ member => absurd member not_mem_nil
    backed := List.Subperm.refl _ }

lemma list {starts : List Nat} (layout : Layout source chain starts base bound current low high found)
    (marked : ∀ point ∈ starts, ∃ mark ∈ found.marks, mark.span = ⟨point,point⟩ ∧ mark.scope = current) :
    Layout source chain points base bound current low high found := by
  refine { layout with offered := fun closure member point offered => ?_ }
  rcases layout.offered closure member point offered with ⟨listed,alone⟩ | offers
  · obtain ⟨mark,found,here,scope⟩ := marked point listed
    refine .inr ⟨mark,found,here,?_,fun other found around => absurd around (alone other found)⟩
    rw [scope]
    exact (layout.made closure member).2.2.outer current layout.self
  · exact .inr offers

lemma enter (layout : Layout source chain points (base + 1) bound base low high found)
    (own : chain base = base :: chain current) (self : current ∈ chain current)
    (below : ∀ other ∈ chain current, other < base) :
    Layout source chain points base bound current low high found := by
  have hosts : ∀ {scope}, Hosts chain (base + 1) bound base scope → Hosts chain base bound current scope := by
    intro scope inner
    refine ⟨inner.lt,fun other around => inner.outer other ?_,fun other around => ?_⟩
    · rw [own]
      exact mem_cons_of_mem _ around
    · rcases inner.inner other around with outer | within
      · rw [own,mem_cons] at outer
        exact outer.elim (fun here => .inr ⟨Nat.le_of_eq here.symm,here ▸ layout.lt⟩) .inl
      · exact .inr ⟨Nat.le_of_succ_le within.1,within.2⟩
  exact { layout with
    self
    below
    opened := Nat.le_of_succ_le layout.opened
    hosted := fun mark member => hosts (layout.hosted mark member)
    made := fun closure member =>
      have ⟨low,high,inner⟩ := layout.made closure member
      ⟨Nat.le_of_succ_le low,high,hosts inner⟩ }

end Layout

/-- A closure whose ranges lie between two offsets and leave alone what its literal holds. -/
structure Closure.Sited (source : List Char) (closure : Closure) (low high : Nat) (inside : Finds) :
    Prop where
  within : ∀ range ∈ closure.ranges source, range.1.fits source = true ∧ low ≤ range.1.start ∧ range.1.stop ≤ high
  apart : (closure.ranges source).Pairwise fun a b => a.1.Clear b.1
  clear : ∀ range ∈ closure.ranges source, range.2 = false → ∀ mark ∈ inside.marks, range.1.Clear mark.span
  taken : ∀ range ∈ closure.ranges source, range.2 = true → closure.isLifted = true
  takes : closure.isLifted = true → ∀ {span scope}, inside.Place span scope → closure.Takes span
  covered : closure.isLifted = true → closure.Covered source
  exported : ∀ statement, closure.Exports statement → (statement.fits source = true ∧
    low ≤ statement.start ∧ statement.stop ≤ high) ∧
      statement.start < closure.span.start ∧ ∀ range ∈ closure.ranges source, statement.holds range.1 = true

variable {source : List Char}

lemma mem_marks : mark ∈ closure.marks source ↔ ∃ range ∈ closure.ranges source, mark =
      ⟨range.1,closure.parent,if range.2 then some closure.scope else none⟩ := by
  simp only [Closure.marks,mem_map,eq_comm]

lemma Layout.close (layout : Layout source chain [] (base + 1) bound base low high found)
    (own : chain base = base :: chain current) (self : current ∈ chain current)
    (below : ∀ other ∈ chain current, other < base) (scope : closure.scope = base)
    (parent : closure.parent = current) (sited : closure.Sited source low high found)
    (offered : ∀ point ∈ closure.hoistPoints, point ∈ points)
    (grounded : ∀ exported statement, closure.context = .declaration true exported statement →
      current = Scoping.root) (all : closures.Perm (closure :: found.closures)) :
    Layout source chain points base bound current low high
      ⟨found.references,closures,closure.marks source ++ found.marks⟩ := by
  have entered := layout.enter own self below
  -- the closure's own scope is around all that its literal holds, and around no mark of its own
  have around : ∀ {span scope}, found.Place span scope → base ∈ chain scope := fun place =>
    (layout.hosts_place place).outer base layout.self
  have places : ∀ {span scope}, Finds.Place ⟨found.references,closures,closure.marks source ++ found.marks⟩
      span scope → (∃ range ∈ closure.ranges source, range.1 = span ∧ scope = current) ∨
        (closure.Exports span ∧ scope = current) ∨ found.Place span scope := by
    intro span scope place
    cases place with
    | mark listed =>
      rcases mem_append.1 listed with own | held
      · obtain ⟨range,ranged,rfl⟩ := mem_marks.1 own
        exact .inl ⟨range,ranged,rfl,parent⟩
      · exact .inr (.inr (.mark held))
    | statement listed exports =>
      rcases mem_cons.1 (all.mem_iff.1 listed) with rfl | listed
      · exact .inr (.inl ⟨exports,parent⟩)
      · exact .inr (.inr (.statement listed exports))
  have outside : ∀ other ∈ closures, other.scope ∉ chain current := by
    intro other member inside
    have low := below _ inside
    rcases mem_cons.1 (all.mem_iff.1 member) with rfl | member
    · exact absurd low (Nat.not_lt_of_le (Nat.le_of_eq scope.symm))
    · exact absurd low (Nat.not_lt_of_le (entered.made other member).1)
  refine {
    self, below
    opened := entered.opened
    ordered := layout.ordered
    hosted := fun mark member => ?_
    within := fun place => ?_
    apart := pairwise_append.2 ⟨?_,layout.apart,fun a ha b hb => ?_⟩
    holes := fun mark member hole within => ?_
    backed := ?_
    made := fun other member => ?_
    covered := fun other member => ?_
    takes := fun other member lifted span _ place inside => ?_
    headed := fun other member statement exports => ?_
    offered := fun other member point pointed => ?_
    grounded := fun other member => ?_ }
  · rcases mem_append.1 member with member | member
    · obtain ⟨range,-,rfl⟩ := mem_marks.1 member
      exact parent ▸ entered.hosts_self
    · exact entered.hosted mark member
  · rcases places place with ⟨range,listed,rfl,-⟩ | ⟨exports,-⟩ | place
    · exact sited.within range listed
    · exact (sited.exported _ exports).1
    · exact layout.within place
  · exact pairwise_map.2 (sited.apart.imp .inl)
  · obtain ⟨⟨span,taken⟩,listed,rfl⟩ := mem_marks.1 ha
    cases taken with
    | false => exact .inl (sited.clear _ listed rfl b hb)
    | true => exact .inr (.inl ⟨closure.scope,rfl,scope ▸ around (.mark hb)⟩)
  · rcases mem_append.1 member with member | member
    · obtain ⟨⟨range,taken⟩,listed,rfl⟩ := mem_marks.1 member
      cases taken with
      | false => cases within
      | true =>
        cases within
        exact ⟨closure,all.mem_iff.2 mem_cons_self,sited.taken _ listed rfl,rfl,member⟩
    · obtain ⟨other,made,rest⟩ := layout.holes mark member hole within
      exact ⟨other,all.mem_iff.2 (mem_cons_of_mem _ made),rest⟩
  · have split : (Finds.needed source ⟨found.references,closures,closure.marks source ++ found.marks⟩).Perm
        (closure.marks source ++ found.needed source) :=
      ((all.flatMap_right (Closure.marks source)).append_left _).trans (perm_append_comm_assoc ..)
    exact split.subperm_right.2 ((subperm_append_left _).2 layout.backed)
  · rcases mem_cons.1 (all.mem_iff.1 member) with rfl | member
    · exact ⟨Nat.le_of_eq scope.symm,scope ▸ layout.lt,parent ▸ entered.hosts_self⟩
    · exact entered.made other member
  · rcases mem_cons.1 (all.mem_iff.1 member) with rfl | member
    · exact sited.covered
    · exact layout.covered other member
  · rcases places place with ⟨range,-,-,rfl⟩ | ⟨-,rfl⟩ | held
    · exact absurd inside (outside other member)
    · exact absurd inside (outside other member)
    · rcases mem_cons.1 (all.mem_iff.1 member) with rfl | member
      · exact sited.takes lifted held
      · exact layout.takes other member lifted held inside
  · rcases mem_cons.1 (all.mem_iff.1 member) with rfl | member
    · exact (sited.exported statement exports).2
    · exact layout.headed other member statement exports
  · rcases mem_cons.1 (all.mem_iff.1 member) with rfl | member
    · exact .inl ⟨offered point pointed,parent ▸ outside⟩
    obtain ⟨mark,marked,here,inside,between⟩ :=
      (layout.offered other member point pointed).resolve_left fun listed => not_mem_nil listed.1
    refine .inr ⟨mark,mem_append_right _ marked,here,inside,fun third member reached => ?_⟩
    rcases mem_cons.1 (all.mem_iff.1 member) with rfl | member
    · exact scope ▸ around (.mark marked)
    · exact between third member reached
  · rcases mem_cons.1 (all.mem_iff.1 member) with rfl | member
    · exact fun exported statement context => parent.trans (grounded exported statement context)
    · exact layout.grounded other member

end Resumable
