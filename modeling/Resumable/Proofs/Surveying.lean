import Resumable.Proofs.Aliases
import Resumable.Proofs.Layout

/-! The walk lays out the text. Over a tree whose spans stand in the text as the tree is read, each walk goes over
one stretch of text, and all that it finds has its marks there. -/
namespace Resumable
open Script List Scoping
variable {site : Site} {shown' : List Nat} {allowed' : Span → Prop} {s : ScopeIndex} {span : Span}

/-! ### What a walk leaves as it was -/

section
variable {setting : Selecting} {nests : Prop} {guard : Guard} {builder later : Builder}

namespace Builder.OpenIn

variable {scope parent : ScopeIndex}

variable (opened : builder.OpenIn scope parent)
include opened

lemma walk (walk : Walk setting nests guard builder later) : later.OpenIn scope parent :=
  opened.later walk.frame.1.grows walk.frame.2

lemma register (site : Site) (candidate : Candidate)
    (around : ScopeIndex) : (register setting site candidate around builder).2.OpenIn scope parent :=
  opened.later (register_grows ..) (register_current ..)

lemma pop_tree : builder.pop.tree = builder.tree.updateScope parent fun outer =>
      { outer with references := outer.references ++ builder.tree.referencesIn scope } := by
  obtain ⟨entry,found,up⟩ := opened.up
  simp only [Builder.pop,Scoping.passUp,opened.current,found,up,referencesIn, Option.map_some,Option.getD_some]

lemma pop_chain (s : ScopeIndex) : builder.pop.tree.chain s = builder.tree.chain s := by
  rw [opened.pop_tree]
  refine chain_updateScope _ (fun outer => ?_) s
  rfl

lemma pop_length : builder.pop.tree.scopes.length = builder.tree.scopes.length := by
  rw [opened.pop_tree]
  exact length_updateScope ..

end Builder.OpenIn

lemma Walk.referencesIn_eq (walk : Walk setting nests guard builder later)
    (old : s < builder.tree.scopes.length) (other : s ≠ builder.current) :
    later.tree.referencesIn s = builder.tree.referencesIn s := by
  induction walk with
  | done => rfl
  | andThen first _ one two =>
    have ⟨extends_,current⟩ := first.frame
    exact (two (old.trans_le extends_.grows.length_le) (current ▸ other)).trans (one old other)
  | declares => exact referencesIn_declare ..
  | records => exact referencesIn_updateScope_ne _ other.symm
  | imports =>
    rw [Builder.addImport,Scoping.addImport,referencesIn_updateScope (by intro _; rfl)]
    exact referencesIn_declare ..
  | exports => rw [Builder.exportName_tree]
  | list _ _ ih => exact ih old other
  | @nested builder inside kind owner walk ih =>
    have opened := (builder.push_openIn kind owner).walk walk
    rw [opened.pop_tree,referencesIn_updateScope_ne _ other.symm,ih,Builder.push, referencesIn_openScope _ _ _ old]
    · rw [length_push]
      exact Nat.lt_succ_of_lt old
    · exact old.ne
  | @closure builder before after kind owner site candidate suits _ first second one two =>
    have entered := (builder.push_openIn kind owner).walk first
    have registered : (register setting site candidate builder.current before).2.OpenIn _ _ :=
      entered.register site candidate builder.current
    have opened := registered.walk second
    have low : s < (builder.push kind owner).tree.scopes.length := by
      rw [length_push]
      exact Nat.lt_succ_of_lt old
    rw [opened.pop_tree,referencesIn_updateScope_ne _ other.symm,two,referencesIn_register,one,
      Builder.push,referencesIn_openScope _ _ _ old]
    · exact low
    · exact old.ne
    · rw [length_register]
      exact low.trans_le first.frame.1.grows.length_le
    · rw [registered.current]
      exact old.ne

end

/-! ### Surveys -/

structure Surveyed (setting : Selecting) (points : List Nat) (low : Nat) (builder : Builder) (high : Nat)
    (later : Builder) (found : Finds) : Prop where
  closures : later.tree.closures = builder.tree.closures ++ found.closures
  references : later.tree.referencesIn builder.current = builder.tree.referencesIn builder.current ++ found.references
  layout : Layout setting.source later.tree.chain points builder.tree.scopes.length
    later.tree.scopes.length builder.current low high found

/-- A walk over the text between two offsets. Declarations in it can move to the `points`, all that it
finds stands where `allowed` says, and there are marks at the offsets that are `shown`. -/
structure Surveys (setting : Selecting) (points shown : List Nat) (allowed : Span → Prop) (low : Nat)
    (builder : Builder) (high : Nat) (later : Builder) : Prop where
  ordered : low ≤ high
  walk : Walk setting False .free builder later
  finds : builder.tree.Sound False builder.current → ∃ found, Surveyed setting points low builder high later found ∧
      (∀ {span scope}, found.Place span scope → allowed span) ∧
      ∀ point ∈ shown, ∃ mark ∈ found.marks, mark.span = ⟨point,point⟩ ∧ mark.scope = builder.current

namespace Scoping.Sound

variable {tree : Scoping} {current : ScopeIndex}

lemma self_mem (sound : tree.Sound False current) : current ∈ tree.chain current :=
  have ⟨_,found⟩ := scope?_of_lt sound.inside
  self_mem_chain sound.parented found

lemma below (sound : tree.Sound False current) : ∀ other ∈ tree.chain current, other < tree.scopes.length :=
  fun _ around => (le_of_mem_chain sound.parented around).trans_lt sound.inside

end Scoping.Sound

lemma Walk.chain_eq (walk : Walk setting False .free builder later)
    (sound : builder.tree.Sound False builder.current) (old : s < builder.tree.scopes.length) :
    later.tree.chain s = builder.tree.chain s :=
  walk.frame.1.grows.chain_eq sound.parented (walk.sound sound).parented old

namespace Surveys

variable {setting : Selecting} {points shown : List Nat} {allowed : Span → Prop} {low high : Nat}
  {builder middle later : Builder}

lemma quiet (walk : Walk setting False .free builder later) (closures : later.tree.closures = builder.tree.closures)
    (references : later.tree.referencesIn builder.current = builder.tree.referencesIn builder.current)
    (ordered : low ≤ high) : Surveys setting points [] allowed low builder high later := by
  refine ⟨ordered,walk,fun sound => ⟨{},⟨?_,?_,?_⟩,?_,?_⟩⟩
  · rw [closures,append_nil]
  · rw [references,append_nil]
  · refine .nothing ?_ ?_ walk.frame.1.grows.length_le ordered
    · rw [walk.chain_eq sound sound.inside]
      exact sound.self_mem
    · rw [walk.chain_eq sound sound.inside]
      exact sound.below
  · exact fun place => place.not_nothing.elim
  · exact fun _ member => absurd member not_mem_nil

lemma done (ordered : low ≤ high) : Surveys setting points [] allowed low builder high builder :=
  quiet .done rfl rfl ordered

lemma record (mention : Mention) (position : Position) (fits : span.fits setting.source = true)
    (lower : low ≤ span.start) (higher : span.stop ≤ high) (stands : allowed span) :
    Surveys setting points [] allowed low builder high (builder.record mention position span) := by
  have ordered : low ≤ high := lower.trans ((Span.fits_iff.1 fits).1.trans higher)
  have walk := @record_free setting builder mention position span
  refine ⟨ordered,walk,fun sound => ?_⟩
  refine ⟨{ references := [⟨mention,span,builder.current,position⟩]
            marks := [⟨span,builder.current,none⟩] },⟨?_,?_,?_⟩,?_,?_⟩
  · exact (append_nil _).symm
  · exact referencesIn_updateScope_append (fun _ => rfl) sound.inside
  · refine Layout.reference (.nothing ?_ ?_ walk.frame.1.grows.length_le ordered) rfl fits lower higher
    · rw [walk.chain_eq sound sound.inside]
      exact sound.self_mem
    · rw [walk.chain_eq sound sound.inside]
      exact sound.below
  · intro span scope place
    cases place with
    | mark listed => exact mem_singleton.1 listed ▸ stands
    | statement listed => exact absurd listed not_mem_nil
  · exact fun _ member => absurd member not_mem_nil

lemma name (position : Position) {id : Ident} (fits : id.span.fits setting.source = true)
    (lower : low ≤ id.span.start) (higher : id.span.stop ≤ high) (stands : allowed id.span) :
    Surveys setting points [] allowed low builder high (builder.recordName position id) := by
  obtain ⟨mention,equal,_⟩ := Builder.recordName_eq position id
  rw [equal]
  exact record mention position fits lower higher stands

variable {low' high' : Nat}

section
variable (surveys : Surveys setting points shown allowed low builder high later)
include surveys

lemma mono (more : points ⊆ points') (fewer : shown' ⊆ shown)
    (loose : ∀ span, low ≤ span.start → span.start ≤ span.stop → span.stop ≤ high → allowed span →
      allowed' span) (lower : low' ≤ low) (higher : high ≤ high') :
    Surveys setting points' shown' allowed' low' builder high' later := by
  refine ⟨lower.trans (surveys.ordered.trans higher),surveys.walk,fun sound => ?_⟩
  obtain ⟨found,⟨closures,references,layout⟩,all,shows⟩ := surveys.finds sound
  refine ⟨found,⟨closures,references,layout.widen more lower higher⟩,fun place => ?_,
    fun point member => shows point (fewer member)⟩
  have ⟨fits,start,stop⟩ := layout.within place
  exact loose _ start (Span.fits_iff.1 fits).1 stop (all place)

section
variable (loose : ∀ span, low ≤ span.start → span.start ≤ span.stop → span.stop ≤ high → allowed span → allowed' span)
include loose

lemma relax (lower : low' ≤ low) (higher : high ≤ high') :
    Surveys setting points shown allowed' low' builder high' later :=
  surveys.mono (List.Subset.refl _) (List.Subset.refl _) loose lower higher

lemma loosen : Surveys setting points shown allowed' low builder high later := surveys.relax loose le_rfl le_rfl

end
end

lemma both (one : Surveys setting points shown allowed low builder high middle)
    (two : Surveys setting points shown' allowed' low middle high later)
    (clear : ∀ a b, allowed a → allowed' b → a.Clear b) :
    Surveys setting points (shown ++ shown') (fun span => allowed span ∨ allowed' span) low builder high later := by
  refine ⟨one.ordered,.andThen one.walk two.walk,fun sound => ?_⟩
  have sound' := one.walk.sound sound
  have same := one.walk.frame.2
  obtain ⟨first,⟨closures,references,layout⟩,all,shows⟩ := one.finds sound
  obtain ⟨second,⟨closures',references',layout'⟩,all',shows'⟩ := two.finds sound'
  rw [same] at references' layout' shows'
  refine ⟨first.append second,⟨?_,?_,?_⟩,fun place => ?_,fun point member => ?_⟩
  · rw [closures',closures,append_assoc]
    rfl
  · rw [references',references,append_assoc]
    rfl
  · exact (layout.congr fun s old => two.walk.chain_eq sound' old).append layout'
      fun a ha b hb => clear _ _ (all (.mark ha)) (all' (.mark hb))
  · exact place.of_append.imp all all'
  · rcases mem_append.1 member with member | member
    · obtain ⟨mark,marked,here⟩ := shows point member
      exact ⟨mark,mem_append_left _ marked,here⟩
    · obtain ⟨mark,marked,here⟩ := shows' point member
      exact ⟨mark,mem_append_right _ marked,here⟩

lemma andThen (one : Surveys setting points shown allowed low builder between middle)
    (two : Surveys setting points shown' allowed between middle high later) :
    Surveys setting points (shown ++ shown') allowed low builder high later := by
  have before : Surveys setting points shown (fun span => allowed span ∧ span.stop ≤ between) low builder high middle :=
    one.relax (fun _ _ _ stop stands => ⟨stands,stop⟩) le_rfl two.ordered
  have after : Surveys setting points shown' (fun span => allowed span ∧ between ≤ span.start) low middle high later :=
    two.relax (fun _ start _ _ stands => ⟨stands,start⟩) one.ordered le_rfl
  exact (before.both after fun a b ha hb => .inl (ha.2.trans hb.2)).loosen
    fun _ _ _ _ stands => stands.elim And.left And.left

lemma point (surveys : Surveys setting points shown allowed low builder high later)
    (cuts : Text.cutsAt setting.source offset = true) (lower : low ≤ offset) (higher : offset ≤ high)
    (clear : ∀ span, allowed span → span.stop ≤ offset ∨ offset ≤ span.start)
    (stands : allowed ⟨offset,offset⟩) :
    Surveys setting points (offset :: shown) allowed low builder high later := by
  refine ⟨surveys.ordered,surveys.walk,fun sound => ?_⟩
  obtain ⟨found,⟨closures,references,layout⟩,all,shows⟩ := surveys.finds sound
  have fits : (⟨offset,offset⟩ : Span).fits setting.source = true := by simp [Span.fits,cuts]
  have marked := layout.mark fits lower higher fun mark member => (clear mark.span (all (.mark member))).symm
  refine ⟨{ found with marks := _ :: found.marks },⟨closures,references,marked⟩,?_,?_⟩
  · intro span scope place
    rcases place.of_marked with ⟨rfl,-⟩ | place
    · exact stands
    · exact all place
  · intro point member
    rcases mem_cons.1 member with rfl | member
    · exact ⟨_,mem_cons_self,rfl,rfl⟩
    · obtain ⟨mark,marked,here⟩ := shows point member
      exact ⟨mark,mem_cons_of_mem _ marked,here⟩

lemma list {starts : List Nat} {walk : Builder → Builder}
    (surveys : Surveys setting starts shown allowed low { builder with lists := starts :: builder.lists }
      high (walk { builder with lists := starts :: builder.lists }))
    (all : starts ⊆ shown) :
    Surveys setting points [] allowed low builder high (builder.withList starts walk) := by
  refine ⟨surveys.ordered,.list starts surveys.walk,fun sound => ?_⟩
  obtain ⟨found,⟨closures,references,layout⟩,stands,shows⟩ := surveys.finds sound
  exact ⟨found,⟨closures,references,layout.list fun point listed => shows point (all listed)⟩,stands,
    fun _ member => absurd member not_mem_nil⟩

end Surveys

structure Builder.Inside (outer inner : Builder) : Prop
    extends inner.OpenIn outer.tree.scopes.length outer.current where
  outside : outer.tree.Sound False outer.current
  sound : inner.tree.Sound False inner.current
  later : outer.tree.Extends inner.tree
  kept : inner.tree.referencesIn outer.current = outer.tree.referencesIn outer.current

namespace Builder.Inside

variable {setting : Selecting} {outer inner next : Builder}

lemma push (sound : outer.tree.Sound False outer.current) (kind : ScopeRole) (owner : Span) :
    outer.Inside (outer.push kind owner) where
  toOpenIn := outer.push_openIn kind owner
  outside := sound
  sound := sound.openScope kind owner
  later := outer.push_extends kind owner
  kept := referencesIn_openScope _ _ _ sound.inside

lemma walk (inside : outer.Inside inner) (walk : Walk setting False .free inner next) : outer.Inside next where
  toOpenIn := inside.toOpenIn.walk walk
  outside := inside.outside
  sound := walk.sound inside.sound
  later := inside.later.trans walk.frame.1
  kept := by
    rw [walk.referencesIn_eq (inside.outside.inside.trans_le inside.later.grows.length_le),inside.kept]
    rw [inside.current]
    exact inside.outside.inside.ne

lemma register (inside : outer.Inside inner) (fits : site.Fits False candidate.span)
    (walk : Walk setting False .free (outer.push kind owner) inner)
    (first : candidate.kind ≠ .classLiteral → inner = outer.push kind owner) :
    outer.Inside (register setting site candidate outer.current inner).2 where
  toOpenIn := inside.toOpenIn.register site candidate outer.current
  outside := inside.outside
  sound := register_sound setting candidate inside.sound walk first fits False.elim
  later := register_extends inside.later setting site candidate outer.current inside.current.symm.le
  kept := (referencesIn_register ..).trans inside.kept

variable (inside : outer.Inside inner)
include inside

lemma outer_chain : inner.tree.chain outer.current = outer.tree.chain outer.current :=
  inside.later.grows.chain_eq inside.outside.parented inside.sound.parented inside.outside.inside

lemma own_chain : inner.tree.chain outer.tree.scopes.length =
    outer.tree.scopes.length :: inner.tree.chain outer.current := by
  obtain ⟨entry,found,up⟩ := inside.up
  exact chain_of_parent inside.sound.parented found up

lemma self_mem : outer.current ∈ inner.tree.chain outer.current := inside.outer_chain ▸ inside.outside.self_mem

lemma below : ∀ other ∈ inner.tree.chain outer.current, other < outer.tree.scopes.length :=
  inside.outer_chain ▸ inside.outside.below

lemma surveyed (closures : inner.tree.closures = outer.tree.closures ++ found.closures)
    (references : inner.tree.referencesIn outer.tree.scopes.length = found.references)
    (layout : Layout setting.source inner.tree.chain points outer.tree.scopes.length
      inner.tree.scopes.length outer.current low high found) :
    Surveyed setting points low outer high inner.pop found := by
  have opened := inside.toOpenIn
  refine ⟨?_,?_,?_⟩
  · rw [opened.pop_tree]
    exact closures
  · rw [opened.pop_tree,referencesIn_updateScope_append (fun _ => rfl)
      (inside.outside.inside.trans_le inside.later.grows.length_le),inside.kept,references]
  · rw [opened.pop_length]
    exact layout.congr fun s _ => opened.pop_chain s

end Builder.Inside

lemma Builder.referencesIn_push (builder : Builder) (kind : ScopeRole) (owner : Span) :
    (builder.push kind owner).tree.referencesIn builder.tree.scopes.length = [] := by
  obtain ⟨entry,found,_,_,none,_⟩ := scope?_openScope_new builder.tree kind builder.current owner
  rw [referencesIn]
  exact (congrArg (fun scope => (Option.map Scope.references scope).getD []) found).trans none

namespace Surveys

variable {setting : Selecting} {points shown : List Nat} {allowed : Span → Prop} {low high : Nat}
  {builder before after : Builder}

lemma nested (kind : ScopeRole) (owner : Span)
    (inner : Surveys setting points shown allowed low (builder.push kind owner) high after) :
    Surveys setting points [] allowed low builder high after.pop := by
  refine ⟨inner.ordered,.nested kind owner inner.walk,fun sound => ?_⟩
  have entered := Builder.Inside.push sound kind owner
  have inside := entered.walk inner.walk
  obtain ⟨found,⟨closures,references,layout⟩,all,-⟩ := inner.finds entered.sound
  rw [length_push] at layout
  refine ⟨found,inside.surveyed closures ?_ (layout.enter inside.own_chain inside.self_mem inside.below),all,
    fun _ member => absurd member not_mem_nil⟩
  exact references.trans (by rw [Builder.push_current,Builder.referencesIn_push,nil_append])

/-- A scope whose literal may become a closure. What is found before the closure is made and what is
found after it are clear of each other, and both leave alone where the closure stands. -/
lemma closure (fits : site.Fits False candidate.span)
    (at_once : candidate.kind ≠ .classLiteral → before = builder.push kind owner)
    (one : Surveys setting [] shown earlier first (builder.push kind owner) last before)
    (two : Surveys setting [] shown' later first (register setting site candidate builder.current before).2 last after)
    (clear : ∀ a b, earlier a → later b → a.Clear b) (lower : low ≤ first) (higher : last ≤ high)
    (sited : ∀ exportName (found : Finds), (∀ {span scope}, found.Place span scope → earlier span ∨ later span) →
        (closureOf site candidate builder.current exportName before).Sited setting.source low high found)
    (offered : hoistPoints builder.lists site.context ⊆ points)
    (grounded : ∀ exported statement, site.context = .declaration true exported statement → builder.current = root) :
    Surveys setting points [] (fun span =>
      (∃ exportName taken, (span, taken) ∈
        (closureOf site candidate builder.current exportName before).ranges setting.source) ∨
      (∃ isDeclaration, site.context = .defaultExport span isDeclaration) ∨ earlier span ∨ later span) low
      builder high after.pop := by
  have ordered := lower.trans (one.ordered.trans higher)
  refine ⟨ordered,.closure kind owner site candidate fits.free at_once one.walk two.walk, fun sound => ?_⟩
  have entered := Builder.Inside.push sound kind owner
  have reached := entered.walk one.walk
  have registered : builder.Inside (register setting site candidate builder.current before).2 :=
    reached.register fits one.walk at_once
  have inside := registered.walk two.walk
  obtain ⟨found,⟨closures,references,layout⟩,all,-⟩ := one.finds entered.sound
  obtain ⟨found',⟨closures',references',layout'⟩,all',-⟩ := two.finds registered.sound
  rw [length_push,Builder.push_current] at layout
  rw [Builder.push_current,Builder.referencesIn_push,nil_append] at references
  rw [length_register,registered.current] at layout'
  rw [registered.current,referencesIn_register,references] at references'
  have same : ∀ s, s < before.tree.scopes.length → after.tree.chain s = before.tree.chain s :=
    fun s old => (two.walk.chain_eq registered.sound (by rwa [length_register])).trans
      ((register_grows ..).chain_eq reached.sound.parented registered.sound.parented old)
  have joined := ((layout.congr same).append layout' fun a ha b hb =>
    clear _ _ (all (.mark ha)) (all' (.mark hb))).widen (List.Subset.refl _) lower higher
  have stands : ∀ {span scope}, (found.append found').Place span scope → earlier span ∨ later span :=
    fun place => place.of_append.imp all all'
  have nowhere : ∀ point ∈ ([] : List Nat), ∃ mark ∈ (found.append found').marks,
      mark.span = ⟨point,point⟩ ∧ mark.scope = builder.current :=
    fun _ member => absurd member not_mem_nil
  rcases register_closures setting site candidate builder.current before with
    unchanged | ⟨chosen,-,made,-⟩
  · rw [unchanged,closures] at closures'
    refine ⟨found.append found',inside.surveyed ?_ references' ?_,fun place => .inr (.inr (stands place)),nowhere⟩
    · exact closures'.trans (append_assoc ..)
    · exact (joined.widen (nil_subset points) le_rfl le_rfl).enter inside.own_chain inside.self_mem inside.below
  · rw [made,closures,append_assoc,append_assoc] at closures'
    refine ⟨⟨_,_,_⟩,inside.surveyed closures' references'
      (joined.close inside.own_chain inside.self_mem inside.below reached.current rfl
        (sited chosen.1 _ stands) ?_ grounded perm_middle),fun place => ?_,
      fun _ member => absurd member not_mem_nil⟩
    · intro point listed
      refine offered ?_
      rw [← show before.lists = builder.lists from one.walk.lists]
      exact listed
    · cases place with
      | mark listed =>
        rcases mem_append.1 listed with own | held
        · obtain ⟨⟨span,taken⟩,ranged,rfl⟩ := mem_marks.1 own
          exact .inl ⟨chosen.1,taken,ranged⟩
        · exact .inr (.inr (stands (.mark held)))
      | statement listed exports =>
        rcases mem_cons.1 (perm_middle.mem_iff.1 listed) with rfl | listed
        · exact .inr (.inl exports)
        · exact .inr (.inr (stands (.statement listed exports)))

end Surveys

/-! ### Where closures stand -/

/-- Whether a literal stands as its form says, between two offsets. -/
def ClosureForm.Stands (form : ClosureForm) (source : List Char) (literal : Span) (low high : Nat) : Prop :=
  match form with
  | .expression => low ≤ literal.start ∧ literal.stop ≤ high
  | .declaration _ _ statement => statement = literal ∧ low ≤ literal.start ∧ literal.stop ≤ high
  | .objectMethod member key _ | .classMethod member key _ _ =>
    member.fits source = true ∧ key.fits source = true ∧ low ≤ member.start ∧ member.start ≤ key.start ∧
      key.stop ≤ literal.start ∧ literal.stop ≤ member.stop ∧ member.stop ≤ high
  | .defaultExport statement _ =>
    statement.fits source = true ∧ low ≤ statement.start ∧ statement.start < literal.start ∧
      literal.stop ≤ statement.stop ∧ statement.stop ≤ high

/-- A closure whose literal stands where its form says. Decorators of a class may come before
`first`. -/
structure Closure.Stands (source : List Char) (closure : Closure) (first low high : Nat) : Prop where
  placed : closure.context.Stands source closure.span low high
  fits : closure.span.fits source = true
  named : closure.span.start ≤ nameOffset source closure ∧ nameOffset source closure ≤ closure.span.stop
  cuts : Text.cutsAt source (nameOffset source closure) = true
  method : closure.context.isMethod = true → nameOffset source closure = closure.paramsStart ∧
    closure.kind ≠ .classLiteral
  start : first ≤ closure.span.start
  exported : ∀ statement isDeclaration, closure.context = .defaultExport statement isDeclaration →
    first ≤ statement.start

/-- What stands in a literal: after the place for its name, or in decorators before it. -/
def Closure.Holds (source : List Char) (closure : Closure) (first : Nat) (span : Span) : Prop :=
  closure.kind = .classLiteral ∧ span.stop ≤ first ∨
    nameOffset source closure ≤ span.start ∧ span.stop ≤ closure.span.stop

namespace Closure.Stands

variable {source : List Char} {closure : Closure} {first low high : Nat} {found : Finds}

variable (stands : closure.Stands source first low high)
include stands

lemma takes (holds : closure.Holds source first span) : closure.Takes span := by
  have ⟨start,stop⟩ := stands.named
  have before := stands.start
  rcases holds with ⟨isClass,front⟩ | ⟨after,inside⟩
  · exact .inr ⟨isClass,front.trans before⟩
  refine .inl ?_
  simp only [Closure.slice,Span.holds]
  split
  · rename_i isMethod
    rw [← (stands.method isMethod).1]
    simp [after,inside]
  · simp [start.trans after,inside]

lemma slice_fits : closure.slice.fits source = true := by
  rw [Closure.slice]
  split
  · rename_i isMethod
    rw [Span.fits_iff,← (stands.method isMethod).1]
    exact ⟨stands.named.2,stands.cuts,(Span.fits_iff.1 stands.fits).2.2⟩
  · exact stands.fits

variable (holds : ∀ {span scope}, found.Place span scope → closure.Holds source first span)
include holds

lemma sited_whole (ranges : closure.ranges source = [(closure.span, true)]) (lifted : closure.isLifted = true)
    (plain : closure.context.isMethod = false) (lower : low ≤ closure.span.start)
    (higher : closure.span.stop ≤ high) :
    closure.Sited source low high found where
  within := by
    rw [ranges]
    exact forall_mem_singleton.2 ⟨stands.fits,lower,higher⟩
  apart := by
    rw [ranges]
    exact pairwise_singleton ..
  clear := by
    rw [ranges]
    exact forall_mem_singleton.2 nofun
  taken _ _ _ := lifted
  takes _ _ _ place := stands.takes (holds place)
  covered _ := by
    refine ⟨stands.slice_fits,⟨closure.span,?_,?_⟩,fun _ => ranges⟩
    · rw [ranges]
      exact mem_singleton_self _
    · simp [Closure.slice,plain,Span.holds]
  exported _ exports := absurd (lifted.symm.trans exports.stays) Bool.true_eq_false.mp

lemma sited_method {member key : Span} (ranges : closure.ranges source =
      [(⟨member.start,key.start⟩, false),(⟨key.stop,member.stop⟩, true)])
    (isMethod : closure.context.isMethod = true) (whole : member.fits source = true)
    (inner : key.fits source = true) (lower : low ≤ member.start) (before : member.start ≤ key.start)
    (after : key.stop ≤ closure.span.start) (within : closure.span.stop ≤ member.stop)
    (higher : member.stop ≤ high) : closure.Sited source low high found := by
  obtain ⟨_,starts,stops⟩ := Span.fits_iff.1 whole
  obtain ⟨ordered,keyStarts,keyStops⟩ := Span.fits_iff.1 inner
  have literal := (Span.fits_iff.1 stands.fits).1
  obtain ⟨params,function⟩ := stands.method isMethod
  have named := stands.named
  rw [params] at named
  have lifted : closure.isLifted = true := by
    cases context : closure.context <;>
      simp_all [ClosureForm.isMethod,Closure.isLifted,ClosureForm.isLifted]
  refine ⟨?_,?_,?_,fun _ _ _ => lifted,fun _ _ _ place => stands.takes (holds place),fun _ => ?_,
    fun _ exports => absurd (lifted.symm.trans exports.stays) Bool.true_eq_false.mp⟩
  · rw [ranges]
    refine forall_mem_cons.2 ⟨⟨Span.fits_iff.2 ⟨before,starts,keyStarts⟩,lower,?_⟩,
      forall_mem_singleton.2 ⟨Span.fits_iff.2 ⟨?_,keyStops,stops⟩,?_,higher⟩⟩
    all_goals simp only; omega
  · rw [ranges]
    exact pairwise_pair.2 (.inl ordered)
  · rw [ranges]
    refine forall_mem_cons.2 ⟨fun _ mark held => .inl ?_,by simp⟩
    have after' := ((holds (.mark held)).resolve_left fun front => function front.1).1
    rw [params] at after'
    simp only
    omega
  · refine ⟨stands.slice_fits,⟨⟨key.stop,member.stop⟩,?_,?_⟩,fun isClass => absurd isClass function⟩
    · rw [ranges]
      exact mem_cons_of_mem _ (mem_singleton_self _)
    · simp only [Closure.slice,isMethod,if_true,Span.holds,Bool.and_eq_true,decide_eq_true_eq]
      omega

lemma sited_inPlace (stays : closure.isLifted = false) (ranges : List Span)
    (listed : closure.ranges source = ranges.map (·, false))
    (within : ∀ range ∈ ranges, range.fits source = true ∧ low ≤ range.start ∧ range.stop ≤ high)
    (apart : ranges.Pairwise Span.Clear)
    (around : ∀ range ∈ ranges, first ≤ range.start ∧ range.stop ≤ nameOffset source closure ∨
      closure.span.stop ≤ range.start)
    (exported : ∀ statement, closure.Exports statement → (statement.fits source = true ∧
      low ≤ statement.start ∧ statement.stop ≤ high) ∧
        statement.start < closure.span.start ∧ ∀ range ∈ ranges, statement.holds range = true) :
    closure.Sited source low high found := by
  have ordered := (Span.fits_iff.1 stands.fits).1
  have front := stands.start
  refine ⟨?_,?_,?_,?_,by simp [stays],by simp [stays],fun statement exports => ?_⟩
  · rw [listed]
    exact forall_mem_map.2 within
  · rw [listed]
    exact pairwise_map.2 apart
  · rw [listed]
    refine forall_mem_map.2 fun range member _ mark held => ?_
    rcases around range member with ⟨start,stop⟩ | behind
    · rcases holds (.mark held) with ⟨-,before⟩ | ⟨after,-⟩
      · exact .inr (before.trans start)
      · exact .inl (stop.trans after)
    · rcases holds (.mark held) with ⟨-,before⟩ | ⟨-,inside⟩
      · exact .inr (before.trans (front.trans (ordered.trans behind)))
      · exact .inr (inside.trans behind)
  · rw [listed]
    exact forall_mem_map.2 fun _ _ => nofun
  · rw [listed]
    exact (exported statement exports).imp_right (And.imp_right forall_mem_map.2)

lemma sited : closure.Sited source low high found := by
  obtain ⟨ordered,starts,stops⟩ := Span.fits_iff.1 stands.fits
  obtain ⟨after,before⟩ := stands.named
  have placed := stands.placed
  have front := stands.start
  cases context : closure.context with
  | expression =>
    rw [context] at placed
    exact stands.sited_whole holds (by rw [Closure.ranges,context]; rfl)
      (by rw [Closure.isLifted,context]; rfl) (by rw [context]; rfl) placed.1 placed.2
  | objectMethod member key computed | classMethod member key computed isStatic =>
    rw [context] at placed
    obtain ⟨whole,inner,lower,start,stop,within,higher⟩ := placed
    exact stands.sited_method holds (by rw [Closure.ranges,context]; rfl) (by rw [context]; rfl) whole
      inner lower start stop within higher
  | declaration topLevel exported statement =>
    rw [context] at placed
    obtain ⟨rfl,lower,higher⟩ := placed
    cases topLevel with
    | false =>
      exact stands.sited_whole holds (by rw [Closure.ranges,context]; rfl)
        (by rw [Closure.isLifted,context]; rfl) (by rw [context]; rfl) lower higher
    | true =>
      refine stands.sited_inPlace holds (by rw [Closure.isLifted,context]; rfl)
        [⟨closure.span.start,closure.span.start⟩,⟨closure.span.stop,closure.span.stop⟩]
        (by rw [Closure.ranges,context]; rfl) ?_ ?_ ?_ ?_
      · simp [Span.fits_iff,starts,stops]
        omega
      · simp [Span.Clear,ordered]
      · simp [front,after]
      · rintro statement ⟨isDeclaration,other⟩
        cases context.symm.trans other
  | defaultExport statement isDeclaration =>
    rw [context] at placed
    obtain ⟨fits,lower,start,stop,higher⟩ := placed
    obtain ⟨_,begins,ends⟩ := Span.fits_iff.1 fits
    have outer := stands.exported statement isDeclaration context
    have exported : ∀ ranges : List Span, (∀ range ∈ ranges, statement.holds range = true) →
        ∀ other, closure.Exports other → (other.fits source = true ∧ low ≤ other.start ∧
          other.stop ≤ high) ∧ other.start < closure.span.start ∧ ∀ range ∈ ranges, other.holds range = true := by
      rintro ranges all other ⟨_,same⟩
      cases context.symm.trans same
      exact ⟨⟨fits,lower,higher⟩,start,all⟩
    have cuts := stands.cuts
    cases isDeclaration with
    | true =>
      refine stands.sited_inPlace holds (by rw [Closure.isLifted,context]; rfl) [⟨statement.start,closure.span.start⟩,
          ⟨nameOffset source closure,nameOffset source closure⟩,⟨statement.stop,statement.stop⟩]
        (by rw [Closure.ranges,context]; rfl) ?_ ?_ ?_ (exported _ ?_)
      · simp [Span.fits_iff,starts,begins,ends,cuts]
        omega
      · simp [Span.Clear]
        omega
      · simp
        omega
      · simp [Span.holds]
        omega
    | false =>
      refine stands.sited_inPlace holds (by rw [Closure.isLifted,context]; rfl)
        [⟨statement.start,closure.span.start⟩,⟨closure.span.stop,statement.stop⟩]
        (by rw [Closure.ranges,context]; rfl) ?_ ?_ ?_ (exported _ ?_)
      · simp [Span.fits_iff,starts,stops,begins,ends]
        omega
      · simp [Span.Clear,ordered]
      · simp [outer,after]
      · simp [Span.holds]
        omega

end Closure.Stands
end Resumable
