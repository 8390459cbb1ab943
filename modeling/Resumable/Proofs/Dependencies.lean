import Resumable.Proofs.LoadRuns

/-! Loaded modules and what they depend on. A dependency of a loaded module has loaded too, unless it
leads back to the module: one that was under way already is not waited for, and may fail later. -/
namespace Resumable
open List

namespace ModuleSet

def DependsOn (source : ModuleSet) (url dependency : String) : Prop :=
  ∃ record, source.find? url = some record ∧ dependency ∈ record.dependencies

abbrev Reaches (source : ModuleSet) : String → String → Prop := Relation.ReflTransGen source.DependsOn

end ModuleSet

namespace ModuleTable

variable {cache later middle : ModuleTable} {url dependency target : String} {record : ModuleEntry}
  {remaining touched : List String} {awaited : Awaited} {result : LoadOutcome} {state next : LoadState}

/-- A dependency that a module does not wait for any more: it has loaded, or it was asked for before
and leads back to the module. -/
def Got (cache : ModuleTable) (url dependency : String) : Prop :=
  (∃ record, cache.state? dependency = some (.finished (.ok record))) ∨
    cache.state? dependency ≠ none ∧ (∃ record, cache.source.find? dependency = some record) ∧
      cache.source.Reaches dependency url

lemma Got.mono (got : cache.Got url dependency) (passes : Passes cache touched later) : later.Got url dependency := by
  rcases got with ⟨record,loaded⟩ | ⟨there,found,reaches⟩
  · exact .inl ⟨record,passes.finished loaded⟩
  · exact .inr ⟨passes.stays there,by rwa [passes.source],by rwa [passes.source]⟩

/-- A module of the set that has got its dependencies, up to those that remain. -/
structure Supplied (cache : ModuleTable) (url : String) (record : ModuleEntry) (remaining : List String) :
    Prop where
  found : cache.source.find? url = some record
  got : ∃ done, record.dependencies = done ++ remaining ∧ ∀ dependency ∈ done, cache.Got url dependency

lemma Supplied.mono (supplied : cache.Supplied url record remaining)
    (passes : Passes cache touched later) : later.Supplied url record remaining := by
  obtain ⟨done,all,got⟩ := supplied.got
  exact ⟨passes.source ▸ supplied.found,done,all,fun name listed => (got name listed).mono passes⟩

def Sound (good : ModuleTable → String → LoadOutcome → Prop) (cache : ModuleTable) : Prop :=
  ∀ ⦃url result⦄, cache.state? url = some (.finished result) → good cache url result

/-- Results are good by the rules that a load follows, and stay so. -/
structure Judges (good : ModuleTable → String → LoadOutcome → Prop) : Prop where
  mono : ∀ {cache later url result touched}, good cache url result → Passes cache touched later → good later url result
  missing : ∀ {cache url failure}, cache.source.answer url = .error failure → good cache url (.error failure)
  linked : ∀ {cache url record}, cache.Sound good → cache.Supplied url record [] → good cache url (.ok record)
  refused : ∀ {cache url record dependency remaining failure}, cache.Sound good →
    cache.Supplied url record (dependency :: remaining) →
    cache.state? dependency = some (.finished (.error failure)) →
    good cache url (.error (dependencyFailed url dependency failure))

variable {good : ModuleTable → String → LoadOutcome → Prop} (judges : Judges good)
include judges

section
variable (sound : cache.Sound good)
include sound

lemma Sound.sets (sets : Sets cache url next later) (passes : Passes cache touched later)
    (here : ∀ result, next = .finished result → good cache url result) : later.Sound good := by
  intro other result done
  by_cases same : url = other
  · subst same
    exact judges.mono (here result (Option.some.inj (sets.self.symm.trans done))) passes
  · exact judges.mono (sound ((sets.of_ne same).symm.trans done)) passes

lemma Sound.setState (known : cache.state? url = some state)
    (isOpen : state.IsOpen) (here : ∀ result, next = .finished result → good cache url result) :
    (cache.setState url next).Sound good :=
  sound.sets judges (sets_setState ..) (passes_setState known isOpen next) here

lemma Sound.start (new : cache.state? url = none) : (cache.start url).Sound good :=
  sound.sets judges (sets_start ..) (passes_start new) nofun

end

omit judges

/-! ### While a module is loaded -/

/-- All that is under way leads to a module. -/
def LeadTo (cache : ModuleTable) (target : String) : Prop :=
  ∀ ⦃other state⦄, state.IsOpen → cache.state? other = some state → cache.source.Reaches other target

lemma LeadTo.onward (leads : cache.LeadTo url) (passes : Passes cache touched later)
    (here : cache.source.Reaches url target)
    (others : ∀ other ∈ touched, cache.source.Reaches other target) : later.LeadTo target := by
  intro other state isOpen there
  rw [passes.source]
  by_cases listed : other ∈ touched
  · exact others other listed
  · exact (leads isOpen ((passes.kept isOpen listed).1 there)).trans here

lemma LeadTo.still (leads : cache.LeadTo url) (passes : Passes cache [url] later) : later.LeadTo url :=
  leads.onward passes .refl fun _ listed => mem_singleton.1 listed ▸ .refl

structure Ready (cache : ModuleTable) (url : String) : Prop where
  leads : cache.LeadTo url
  linking : ∀ {record remaining}, cache.state? url = some (.linking record remaining none) →
    cache.Supplied url record remaining

lemma ready_linking (leads : cache.LeadTo url) (passes : Passes cache [url] middle)
    (known : middle.state? url = some state) (isOpen : state.IsOpen)
    (supplied : middle.Supplied url record remaining) :
    (middle.setState url (.linking record remaining none)).Ready url := by
  have set := passes_setState known isOpen (.linking record remaining none)
  refine ⟨leads.still (passes.trans set),fun {_ _} there => ?_⟩
  cases (sets_setState ..).self.symm.trans there
  exact supplied.mono set

section
variable (known : cache.state? url = some (.linking record (dependency :: remaining) none)) (ready : cache.Ready url)
include known

lemma Sound.asked (judges : Judges good) (sound : cache.Sound good) :
    (cache.asked url record dependency remaining).Sound good := by
  rcases request_cases cache dependency with ⟨_,-,eq⟩ | ⟨_,-,-,eq⟩ | ⟨new,eq⟩ <;>
    rw [ModuleTable.asked,eq]
  · exact sound.setState judges known (by rintro _ ⟨⟩) (by simp)
  · exact sound.setState judges known (by rintro _ ⟨⟩) (by simp)
  · exact (sound.start judges new).setState judges
      (((sets_start ..).of_ne (ne_of_new known new)).trans known) (by rintro _ ⟨⟩) (by simp)

include ready

lemma Ready.asked (load : (cache.request dependency true).1 = .load other) :
    (cache.asked url record dependency remaining).Ready other := by
  have passes := passes_asked known
  rcases request_cases cache dependency with ⟨_,-,eq⟩ | ⟨_,-,-,eq⟩ | ⟨new,eq⟩
  · simp [eq] at load
  · simp [eq] at load
  obtain rfl : dependency = other := by simpa [eq] using load
  obtain ⟨found,done,all,-⟩ := ready.linking known
  have edge : cache.source.DependsOn url dependency := ⟨record,found,by simp [all]⟩
  refine ⟨ready.leads.onward passes (.single edge) fun other listed => ?_,fun {_ _} there => ?_⟩
  · have either : other = url ∨ other = dependency := by simpa [eq,Awaited.loads] using listed
    rcases either with rfl | rfl
    · exact .single edge
    · exact .refl
  · cases (state?_asked known new).symm.trans there

lemma Comes.result_or_back (comes : Comes (cache.asked url record dependency remaining)
      (cache.request dependency true).1 result middle) :
    middle.state? dependency = some (.finished result) ∨ (∃ other, result = .ok other) ∧ middle.Got url dependency := by
  have passes := passes_asked known
  rcases request_cases cache dependency with ⟨known,done,eq⟩ | ⟨state,there,isOpen,eq⟩ | ⟨-,eq⟩
  · have kept := passes.finished done
    rw [eq] at comes
    cases comes
    exact .inl kept
  · have kept := passes.stays (Option.ne_none_iff_exists'.2 ⟨state,there⟩)
    have reaches := ready.leads isOpen there
    obtain ⟨other,found⟩ : ∃ other, cache.source.find? dependency = some other := by
      rcases reaches.cases_head with rfl | ⟨_,⟨other,found,-⟩,-⟩
      · exact ⟨record,(ready.linking known).found⟩
      · exact ⟨other,found⟩
    rw [← passes.source] at reaches found
    have answer : (cache.asked url record dependency remaining).source.answer dependency = .ok other := by
      rw [ModuleSet.answer,found]
    rw [eq] at comes
    cases comes
    exact .inr ⟨⟨other,answer⟩,.inr ⟨kept,⟨other,found⟩,reaches⟩⟩
  · rw [eq] at comes
    exact .inl (comes.passes.2 dependency rfl)

end

/-- Good results stay so, by the rules that a load follows. The modules under way lead to the one that
is loaded, so one that is met again closes a cycle. -/
lemma Comes.sound (judges : Judges good) (comes : Comes cache awaited result later)
    (sound : cache.Sound good) (ready : ∀ url, awaited = .load url → cache.Ready url) :
    later.Sound good := by
  induction comes with
  | result | fetch => exact sound
  | missing known answer =>
    refine sound.setState judges known nofun ?_
    rintro _ ⟨⟩
    exact judges.missing answer
  | @fetched cache url record _ _ known answer _ ih =>
    refine ih (sound.setState judges known nofun (by nofun)) ?_
    rintro _ ⟨⟩
    exact ready_linking (ready url rfl).leads (.refl ..) known nofun ⟨answer_ok answer,[],rfl,forall_mem_nil _⟩
  | @linked cache url record known =>
    refine sound.setState judges known nofun ?_
    rintro _ ⟨⟩
    exact judges.linked sound ((ready url rfl).linking known)
  | @refused _ _ url _ _ _ _ known got ih =>
    have ready := ready url rfl
    obtain ⟨passes,here⟩ := got.ask known
    have between := ih (sound.asked known judges) fun _ load => ready.asked known load
    refine between.setState judges here nofun ?_
    rintro _ ⟨⟩
    have failed := (got.result_or_back known ready).resolve_right (by simp)
    exact judges.refused between ((ready.linking known).mono passes) failed
  | @supplied _ _ url _ dependency _ other _ _ known got _ ihGot ih =>
    have ready := ready url rfl
    obtain ⟨passes,here⟩ := got.ask known
    have between := ihGot (sound.asked known judges) fun _ load => ready.asked known load
    refine ih (between.setState judges here nofun (by nofun)) ?_
    rintro _ ⟨⟩
    obtain ⟨found,done,all,before⟩ := (ready.linking known).mono passes
    refine ready_linking ready.leads passes here nofun ⟨found,done ++ [dependency],by simp [all],?_⟩
    rw [forall_mem_append,forall_mem_singleton]
    exact ⟨before,(got.result_or_back known ready).elim (fun loaded => .inl ⟨other,loaded⟩) (·.2)⟩

/-! ### After any requests -/

lemma Settled.sound (judges : Judges good) (settled : cache.Settled) (sound : cache.Sound good)
    (new : cache.state? url = none) (comes : Comes (cache.start url) (.load url) result later) :
    later.Sound good := by
  have leads : cache.LeadTo url := fun _ _ isOpen there => absurd there (settled.idle isOpen)
  refine comes.sound judges (sound.start judges new) ?_
  rintro _ ⟨⟩
  refine ⟨leads.still (passes_start new),fun {_ _} there => ?_⟩
  cases (sets_start ..).self.symm.trans there

lemma after_sound (judges : Judges good) (records : List ModuleEntry) (history : List (List String)) :
    (after records history).Sound good ∧ (after records history).source = { records } := by
  obtain ⟨_,resolves⟩ := (settled_start records).foldl history
  exact ⟨resolves.induction (fun settled sound new comes => settled.sound judges sound new comes)
    (settled_start records) nofun,resolves.passes.source⟩

def Equipped (cache : ModuleTable) (url : String) (result : LoadOutcome) : Prop :=
  ∀ record, result = .ok record → cache.Supplied url record []

lemma judges_equipped : Judges Equipped where
  mono equipped passes record ok := (equipped record ok).mono passes
  missing _ := nofun
  linked _ supplied := by
    rintro _ ⟨⟩
    exact supplied
  refused _ _ _ := nofun

lemma loaded?_eq_some : cache.loaded? url = some record ↔ cache.state? url = some (.finished (.ok record)) := by
  rw [← result?_eq_some,loaded?]
  split <;> simp_all

section
variable (settled : cache.Settled) (sound : cache.Sound Equipped)
include settled sound

lemma loaded_or_failed (loaded : cache.loaded? url = some record) (listed : dependency ∈ record.dependencies) :
    (∃ other, cache.loaded? dependency = some other) ∨ (∃ failure, cache.failure? dependency = some failure) ∧
    (∃ other, cache.source.find? dependency = some other) ∧ cache.source.Reaches dependency url := by
  obtain ⟨-,done,all,got⟩ := sound (loaded?_eq_some.1 loaded) record rfl
  rcases got dependency (by simpa [all] using listed) with ⟨other,done⟩ | ⟨there,found,reaches⟩
  · exact .inl ⟨other,loaded?_eq_some.2 done⟩
  · obtain ⟨outcome,known⟩ := (settled.cases dependency).resolve_left there
    cases outcome with
    | ok other => exact .inl ⟨other,loaded?_eq_some.2 known⟩
    | error failure => exact .inr ⟨⟨failure,by simp [failure?,result?,known]⟩,found,reaches⟩

lemma exists_cycle_of_failed {failed : String} {failure : Diagnostic} (reaches : cache.source.Reaches url failed)
    (loaded : ∃ record, cache.loaded? url = some record) (fails : cache.failure? failed = some failure) :
    ∃ user used, cache.source.Reaches url user ∧ (∃ record, cache.loaded? user = some record) ∧
    cache.source.DependsOn user used ∧ (∃ failure, cache.failure? used = some failure) ∧
    cache.source.Reaches used user := by
  induction reaches using Relation.ReflTransGen.head_induction_on with
  | refl =>
    obtain ⟨record,loaded⟩ := loaded
    simp [failure?,result?,loaded?_eq_some.1 loaded] at fails
  | @head url next edge _ ih =>
    obtain ⟨record,loaded⟩ := loaded
    obtain ⟨other,found,listed⟩ := edge
    cases (sound (loaded?_eq_some.1 loaded) record rfl).found.symm.trans found
    rcases loaded_or_failed settled sound loaded listed with next | ⟨broken,-,back⟩
    · obtain ⟨user,used,onward,rest⟩ := ih next
      exact ⟨user,used,.head ⟨record,found,listed⟩ onward,rest⟩
    · exact ⟨url,_,.refl,⟨record,loaded⟩,⟨record,found,listed⟩,broken,back⟩

end

/-- After any requests, a loaded module is one of the set, and each of its dependencies has loaded,
or has failed and leads back to it. So a loaded module depends on a failed one only across a cycle. -/
theorem loaded_modules_have_dependencies (records : List ModuleEntry) (history : List (List String))
    {url : String} {record : ModuleEntry} (loaded : (after records history).loaded? url = some record) :
    ModuleSet.find? { records } url = some record ∧
    (∀ dependency ∈ record.dependencies,
      (∃ other, (after records history).loaded? dependency = some other) ∨
        (∃ failure, (after records history).failure? dependency = some failure) ∧
          (∃ other, ModuleSet.find? { records } dependency = some other) ∧
          ModuleSet.Reaches { records } dependency url) ∧
    ∀ failed failure, ModuleSet.Reaches { records } url failed →
      (after records history).failure? failed = some failure →
      ∃ user used, ModuleSet.Reaches { records } url user ∧
        (∃ record, (after records history).loaded? user = some record) ∧
        ModuleSet.DependsOn { records } user used ∧
        (∃ failure, (after records history).failure? used = some failure) ∧
        ModuleSet.Reaches { records } used user := by
  have settled := settled_after records history
  obtain ⟨sound, source⟩ := after_sound judges_equipped records history
  rw [← source]
  refine ⟨(sound (loaded?_eq_some.mp loaded) record rfl).found, ?_, ?_⟩
  · intro dependency listed
    exact loaded_or_failed settled sound loaded listed
  · intro failed failure reaches fails
    exact exists_cycle_of_failed settled sound reaches ⟨record, loaded⟩ fails

theorem brokenCycle_has_dependencies :
    (after brokenCycle [["a"]]).loaded? "b" = some ⟨"b", ["B"], ["a"]⟩ ∧
      (∃ failure, (after brokenCycle [["a"]]).failure? "a" = some failure) ∧
      ModuleSet.Reaches { records := brokenCycle } "a" "b" := by
  have loaded : (after brokenCycle [["a"]]).loaded? "b" = some ⟨"b", ["B"], ["a"]⟩ := by decide
  have missing : (after brokenCycle [["a"]]).loaded? "a" = none := by decide
  rcases (loaded_modules_have_dependencies brokenCycle [["a"]] loaded).2.1 "a" (by simp) with
    ⟨other, also⟩ | ⟨failed, -, reaches⟩
  · simp [missing] at also
  · exact ⟨loaded, failed, reaches⟩

/-- A module is loaded though one that it depends on has failed. -/
theorem loaded_module_with_failed_dependency :
    ∃ record dependency failure, (after brokenCycle [["a"]]).loaded? "b" = some record ∧
      dependency ∈ record.dependencies ∧
      (after brokenCycle [["a"]]).loaded? dependency = none ∧
      (after brokenCycle [["a"]]).failure? dependency = some failure :=
  ⟨⟨"b", ["B"], ["a"]⟩, "a", dependencyFailed "a" "gone" (ModuleSet.notFound "gone"), by decide, by decide,
    by decide, by decide⟩

/-! ### Without cycles -/

end ModuleTable

namespace ModuleSet

variable {source : ModuleSet} {url other : String} {failure : Diagnostic}

/-- No module leads back to itself. -/
def Acyclic (source : ModuleSet) : Prop := ∀ url, ¬ Relation.TransGen source.DependsOn url url

def Whole (source : ModuleSet) (url : String) : Prop := ∀ other, source.Reaches url other → (source.find? other).isSome

inductive Loads (source : ModuleSet) : String → Prop
  | intro {url : String} {record : ModuleEntry} (found : source.find? url = some record)
    (all : ∀ dependency ∈ record.dependencies, Loads source dependency) : Loads source url

/-- A module is missing, or the first of its dependencies that cannot be loaded fails. -/
inductive Fails (source : ModuleSet) : String → Diagnostic → Prop
  | missing {url : String} (missing : source.find? url = none) : Fails source url (notFound url)
  | refused {url dependency : String} {record : ModuleEntry} {done remaining : List String}
    {failure : Diagnostic} (found : source.find? url = some record)
    (split : record.dependencies = done ++ dependency :: remaining)
    (before : ∀ other ∈ done, Loads source other) (failed : Fails source dependency failure) :
    Fails source url (ModuleTable.dependencyFailed url dependency failure)

lemma Loads.found (loads : source.Loads url) (reaches : source.Reaches url other) : (source.find? other).isSome := by
  induction reaches using Relation.ReflTransGen.head_induction_on with
  | refl =>
    obtain ⟨found,-⟩ := loads
    simp [found]
  | head edge _ ih =>
    obtain ⟨found,all⟩ := loads
    obtain ⟨_,also,listed⟩ := edge
    cases found.symm.trans also
    exact ih (all _ listed)

section
variable (fails : source.Fails url failure)
include fails

lemma Fails.lacks : ∃ other, source.Reaches url other ∧ source.find? other = none := by
  induction fails with
  | missing missing => exact ⟨_,.refl,missing⟩
  | refused found split _ _ ih =>
    obtain ⟨other,reaches,missing⟩ := ih
    exact ⟨other,.head ⟨_,found,by simp [split]⟩ reaches,missing⟩

lemma Fails.invariant_eq : failure.invariant = .moduleLoad := by cases fails <;> rfl

lemma Fails.not_loads : ¬ source.Loads url := by
  intro loads
  obtain ⟨other,reaches,missing⟩ := fails.lacks
  simpa [missing] using loads.found reaches

/-- A module fails in one way only: the dependency that fails first is determined. -/
lemma Fails.unique (also : source.Fails url failure') : failure = failure' := by
  induction fails generalizing failure' with
  | missing missing =>
    cases also with
    | missing => rfl
    | refused found => cases missing.symm.trans found
  | @refused url dependency record done remaining failure found split before failed ih =>
    cases also with
    | missing missing => cases missing.symm.trans found
    | @refused _ dependency' _ done' _ failure' found' split' before' failed' =>
      cases found.symm.trans found'
      rw [split] at split'
      rcases append_eq_append_iff.1 split' with ⟨more,rfl,same⟩ | ⟨more,rfl,same⟩
      · cases more with
        | nil =>
          cases same
          rw [ih failed']
        | cons first more =>
          cases same
          exact absurd (before' dependency (by simp)) failed.not_loads
      · cases more with
        | nil =>
          cases same
          rw [ih failed']
        | cons first more =>
          cases same
          exact absurd (before dependency' (by simp)) failed'.not_loads

end

def Due (source : ModuleSet) (url : String) : LoadOutcome → Prop
  | .ok record => source.find? url = some record ∧ source.Loads url
  | .error failure => source.Fails url failure

lemma Due.unique (due : source.Due url result) (also : source.Due url result') : result = result' := by
  cases result with
  | ok record =>
    cases result' with
    | ok record' => rw [Option.some.inj (due.1.symm.trans also.1)]
    | error failure => exact absurd due.2 (ModuleSet.Fails.not_loads also)
  | error failure =>
    cases result' with
    | ok record => exact absurd also.2 (ModuleSet.Fails.not_loads due)
    | error failure' => rw [ModuleSet.Fails.unique due also]

end ModuleSet

namespace ModuleTable

variable {cache : ModuleTable} {url dependency : String} {record : ModuleEntry} {remaining : List String}
  {result : LoadOutcome}

lemma Supplied.loads (supplied : cache.Supplied url record remaining) (acyclic : cache.source.Acyclic)
    (sound : cache.Sound good)
    (loads : ∀ {dependency other}, good cache dependency (.ok other) → cache.source.Loads dependency) :
    ∃ done, record.dependencies = done ++ remaining ∧ ∀ dependency ∈ done, cache.source.Loads dependency := by
  obtain ⟨done,all,got⟩ := supplied.got
  refine ⟨done,all,fun dependency listed => ?_⟩
  rcases got dependency listed with ⟨other,loaded⟩ | ⟨-,-,back⟩
  · exact loads (sound loaded)
  · have edge : cache.source.DependsOn url dependency := ⟨record,supplied.found,by simp [all,listed]⟩
    exact absurd (.head' edge back) (acyclic url)

def Expected (cache : ModuleTable) (url : String) (result : LoadOutcome) : Prop :=
  cache.source.Acyclic → cache.source.Due url result

lemma judges_expected : Judges Expected where
  mono expected passes := by
    unfold Expected
    rw [passes.source]
    exact expected
  missing {cache url failure} answer _ := by
    unfold ModuleSet.answer at answer
    cases found : cache.source.find? url with
    | some record => simp [found] at answer
    | none =>
      rw [found] at answer
      cases answer
      exact .missing found
  linked sound supplied acyclic := by
    obtain ⟨done,all,loads⟩ := supplied.loads acyclic sound fun due => (due acyclic).2
    rw [append_nil] at all
    exact ⟨supplied.found,supplied.found,all ▸ loads⟩
  refused sound supplied failed acyclic := by
    obtain ⟨done,all,loads⟩ := supplied.loads acyclic sound fun due => (due acyclic).2
    exact .refused supplied.found all loads (sound failed acyclic)

/-- Without cycles, what a module comes to is decided by what it leads to, whatever was loaded before:
it loads if all of that is in the set, and fails if not. -/
theorem load_decided_by_reachability {records : List ModuleEntry}
    (acyclic : ModuleSet.Acyclic { records }) (url : String) :
    ∃ result, (∀ history, ((after records history).load url).1 = result) ∧
      ((∃ record, ModuleSet.find? { records } url = some record ∧ result = .ok record) ↔
        ModuleSet.Whole { records } url) ∧
      ((∃ failure, result = .error failure ∧ failure.invariant.code = "HB-ERR-HYDRATE-002") ↔
        ¬ ModuleSet.Whole { records } url) := by
  have due (history : List (List String)) :
      ModuleSet.Due { records } url ((after records history).load url).1 := by
    have all := after_sound judges_expected records (history ++ [[url]])
    have known := (settled_after records history).load_eq url
    have here : ((after records history).load url).2 = after records (history ++ [[url]]) := by
      unfold after
      rw [List.foldl_append]
      rfl
    rw [here] at known
    exact all.2 ▸ all.1 known (all.2 ▸ acyclic)
  refine ⟨_, fun history => (due history).unique (due []), ?_⟩
  replace due := due []
  generalize ((after records []).load url).1 = result at due ⊢
  cases result with
  | ok record =>
    have whole : ModuleSet.Whole { records } url := fun other => due.2.found
    exact ⟨⟨fun _ => whole, fun _ => ⟨record, due.1, rfl⟩⟩, by simp, fun lacks => absurd whole lacks⟩
  | error failure =>
    obtain ⟨other, reaches, missing⟩ := ModuleSet.Fails.lacks due
    have lacks : ¬ ModuleSet.Whole { records } url := by
      intro all
      simpa [missing] using all other reaches
    refine ⟨⟨by simp, fun all => absurd all lacks⟩, fun _ => lacks, fun _ => ⟨failure, rfl, ?_⟩⟩
    rw [ModuleSet.Fails.invariant_eq due]
    rfl

/-- Two modules that share a dependency, one of which also needs a module that is not there. -/
def diamond : List ModuleEntry := [⟨"a",["A"],["b","c"]⟩,⟨"b",["B"],["d"]⟩,⟨"c",["C"],["d","gone"]⟩,⟨"d",["D"],[]⟩]

lemma acyclic_diamond : ModuleSet.Acyclic { records := diamond } := by
  let height (url : String) : Nat := if url = "a" then 2 else if url = "b" ∨ url = "c" then 1 else 0
  have falls {url dependency : String} (edge : ModuleSet.DependsOn { records := diamond } url dependency) :
      height dependency < height url := by
    obtain ⟨record,found,listed⟩ := edge
    obtain rfl : record.url = url := by simpa using List.find?_some found
    have member := mem_of_find?_eq_some found
    simp only [diamond,reverse_cons,reverse_nil,nil_append,cons_append, mem_cons,not_mem_nil,or_false] at member
    rcases member with rfl | rfl | rfl | rfl <;> simp at listed
    · rcases listed with rfl | rfl <;> simp [height]
    · simp [height,listed]
    · rcases listed with rfl | rfl <;> simp [height]
  have descends {url other : String} (path : Relation.TransGen (ModuleSet.DependsOn { records := diamond }) url other) :
      height other < height url := by
    induction path with
    | single edge => exact falls edge
    | tail _ edge ih => exact (falls edge).trans ih
  exact fun url cycle => Nat.lt_irrefl _ (descends cycle)

theorem diamond_decided : ModuleSet.Acyclic { records := diamond } ∧
    (∀ history, ((after diamond history).load "b").1 = .ok ⟨"b", ["B"], ["d"]⟩) ∧
    ∀ history, ((after diamond history).load "a").1 = .error (dependencyFailed "a" "c"
      (dependencyFailed "c" "gone" (ModuleSet.notFound "gone"))) := by
  refine ⟨acyclic_diamond, ?_, ?_⟩
  · obtain ⟨result, same, -⟩ := load_decided_by_reachability acyclic_diamond "b"
    exact fun history => (same history).trans ((same []).symm.trans (by decide))
  · obtain ⟨result, same, -⟩ := load_decided_by_reachability acyclic_diamond "a"
    exact fun history => (same history).trans ((same []).symm.trans (by decide))

end ModuleTable
end Resumable
