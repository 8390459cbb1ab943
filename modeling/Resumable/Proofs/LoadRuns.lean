import Resumable.Modules.Loading
import Resumable.Proofs.Keyed
import Mathlib.Data.Set.Card

/-! How loads run when no answer is delayed. A load that is asked for comes to its result at once: the
dependencies that are new are loaded on the way, one inside the other, and those that are under way
already are not waited for. -/
namespace Resumable

def LoadState.IsOpen (state : LoadState) : Prop := ∀ result, state ≠ .finished result

def Awaited.loads : Awaited → List String
  | .load url => [url]
  | _ => []

namespace ModuleTable

variable {cache later middle : ModuleTable} {url dependency : String} {record : ModuleEntry}
  {remaining touched : List String} {awaited : Awaited} {result : LoadOutcome} {state next : LoadState}

/-- Answers are not delayed, and each module that is known was asked for once. -/
structure Prompt (cache : ModuleTable) : Prop where
  delays : cache.source.delays = []
  fetches : ∀ entry ∈ cache.fetches, entry.2 = ⟨0,cache.source.answer entry.1⟩
  once : (cache.fetches.map Prod.fst).Nodup
  known : ∀ url, url ∈ cache.fetches.map Prod.fst ↔ cache.state? url ≠ none

lemma Prompt.pollFetch (prompt : cache.Prompt) (url : String) :
    cache.pollFetch url = (some (cache.source.answer url), cache) := by
  unfold ModuleTable.pollFetch
  cases found : Keyed.get? url cache.fetches with
  | none => rfl
  | some fetch => rw [show fetch = ⟨0,cache.source.answer url⟩ from prompt.fetches _ (Keyed.mem_of_get? found)]

/-! ### What changes -/

structure Sets (cache : ModuleTable) (url : String) (state : LoadState) (later : ModuleTable) : Prop where
  source : later.source = cache.source
  state? (other : String) : later.state? other = if url = other then some state else cache.state? other

lemma sets_setState (cache : ModuleTable) (url : String) (state : LoadState) :
    Sets cache url state (cache.setState url state) :=
  ⟨rfl,fun other => Keyed.get?_insert url other state _⟩

lemma sets_start (cache : ModuleTable) (url : String) : Sets cache url .fetching (cache.start url) :=
  ⟨rfl,fun other => Keyed.get?_insert url other LoadState.fetching _⟩

lemma Sets.self (sets : Sets cache url state later) : later.state? url = some state := by rw [sets.state?,if_pos rfl]

lemma Sets.of_ne (sets : Sets cache url state later) (apart : url ≠ other) :
    later.state? other = cache.state? other := by
  rw [sets.state?,if_neg apart]

lemma Prompt.setState (prompt : cache.Prompt) (known : cache.state? url ≠ none) (state : LoadState) :
    (cache.setState url state).Prompt := by
  refine { prompt with known := fun other => (prompt.known other).trans ?_ }
  rw [(sets_setState ..).state?]
  split
  · next same => simpa [← same] using known
  · rfl

lemma Prompt.start (prompt : cache.Prompt) (new : cache.state? url = none) : (cache.start url).Prompt where
  delays := prompt.delays
  fetches entry listed := by
    rcases List.mem_append.1 listed with old | added
    · exact prompt.fetches entry old
    · have undelayed : cache.source.delay url = 0 := by simp [ModuleSet.delay,prompt.delays]
      rw [List.mem_singleton.1 added,undelayed]
      rfl
  once := by
    have fresh : url ∉ cache.fetches.map Prod.fst := fun listed => (prompt.known url).1 listed new
    rw [ModuleTable.start,List.map_append,List.map_singleton]
    exact List.nodup_append_comm.1 (List.nodup_cons.2 ⟨fresh,prompt.once⟩)
  known other := by
    rw [(sets_start ..).state?,ModuleTable.start,List.map_append,List.mem_append,prompt.known]
    by_cases same : url = other
    · simp [same]
    · simp [same,Ne.symm same]

/-- Results stay, and of the modules that are under way only some are touched. -/
structure Passes (cache : ModuleTable) (touched : List String) (later : ModuleTable) : Prop where
  source : later.source = cache.source
  prompt : cache.Prompt → later.Prompt
  stays : ∀ {other}, cache.state? other ≠ none → later.state? other ≠ none
  finished : ∀ {other result}, cache.state? other = some (.finished result) →
    later.state? other = some (.finished result)
  kept : ∀ {other state}, state.IsOpen → other ∉ touched →
    (later.state? other = some state ↔ cache.state? other = some state)

lemma Passes.refl (cache : ModuleTable) (touched : List String) : Passes cache touched cache :=
  ⟨rfl,id,id,id,fun _ _ => Iff.rfl⟩

lemma Passes.trans (first : Passes cache touched middle) (second : Passes middle touched later) :
    Passes cache touched later where
  source := second.source.trans first.source
  prompt prompt := second.prompt (first.prompt prompt)
  stays there := second.stays (first.stays there)
  finished done := second.finished (first.finished done)
  kept isOpen out := (second.kept isOpen out).trans (first.kept isOpen out)

lemma Passes.mono (passes : Passes cache touched later) (more : touched ⊆ all) : Passes cache all later :=
  { passes with kept := fun isOpen out => passes.kept isOpen fun listed => out (more listed) }

lemma Passes.settle (passes : Passes cache (url :: touched) later) (new : cache.state? url = none)
    (done : later.state? url = some (.finished result)) : Passes cache touched later := by
  refine { passes with kept := fun {other state} isOpen out => ?_ }
  by_cases same : other = url
  · subst same
    simpa [new,done] using (isOpen result).symm
  · exact passes.kept isOpen (by simp [same,out])

lemma Sets.passes (sets : Sets cache url next later) (prompt : cache.Prompt → later.Prompt)
    (running : ∀ result, cache.state? url ≠ some (.finished result)) : Passes cache [url] later where
  source := sets.source
  prompt := prompt
  stays {other} there := by
    rw [sets.state?]
    split <;> simp [there]
  finished {other result} done := by
    have apart : url ≠ other := by
      rintro rfl
      exact running result done
    rwa [sets.of_ne apart]
  kept {other state} _ out := by rw [sets.of_ne fun same => out (by simp [same])]

lemma passes_setState (known : cache.state? url = some state) (isOpen : state.IsOpen)
    (next : LoadState) : Passes cache [url] (cache.setState url next) :=
  (sets_setState cache url next).passes (fun prompt => prompt.setState (by simp [known]) next)
    fun result => by simpa [known] using isOpen result

lemma passes_start (new : cache.state? url = none) : Passes cache [url] (cache.start url) :=
  (sets_start cache url).passes (fun prompt => prompt.start new) (by simp [new])

/-! ### What a load comes to -/

def asked (cache : ModuleTable) (url : String) (record : ModuleEntry) (dependency : String)
    (remaining : List String) : ModuleTable :=
  (cache.request dependency true).2.setState url
    (.linking record (dependency :: remaining) (some (cache.request dependency true).1))

inductive Comes : ModuleTable → Awaited → LoadOutcome → ModuleTable → Prop
  | result (cache : ModuleTable) (result : LoadOutcome) : Comes cache (.result result) result cache
  | fetch (cache : ModuleTable) (url : String) : Comes cache (.fetch url) (cache.source.answer url) cache
  | missing {cache : ModuleTable} {url failure} (known : cache.state? url = some .fetching)
    (answer : cache.source.answer url = .error failure) :
    Comes cache (.load url) (.error failure) (cache.setState url (.finished (.error failure)))
  | fetched {cache : ModuleTable} {url record result later} (known : cache.state? url = some .fetching)
    (answer : cache.source.answer url = .ok record)
    (rest : Comes (cache.setState url (.linking record record.dependencies none)) (.load url) result
      later) : Comes cache (.load url) result later
  | linked {cache : ModuleTable} {url record} (known : cache.state? url = some (.linking record [] none)) :
    Comes cache (.load url) (.ok record) (cache.setState url (.finished (.ok record)))
  | refused {cache middle : ModuleTable} {url record dependency remaining failure}
    (known : cache.state? url = some (.linking record (dependency :: remaining) none))
    (got : Comes (cache.asked url record dependency remaining) (cache.request dependency true).1
      (.error failure) middle) :
    Comes cache (.load url) (.error (dependencyFailed url dependency failure))
      (middle.setState url (.finished (.error (dependencyFailed url dependency failure))))
  | supplied {cache middle : ModuleTable} {url record dependency remaining other result later}
    (known : cache.state? url = some (.linking record (dependency :: remaining) none))
    (got : Comes (cache.asked url record dependency remaining) (cache.request dependency true).1 (.ok other) middle)
    (rest : Comes (middle.setState url (.linking record remaining none)) (.load url) result later) :
    Comes cache (.load url) result later

lemma request_cases (cache : ModuleTable) (url : String) : (∃ result, cache.state? url = some (.finished result) ∧
      cache.request url true = (.result result, cache)) ∨
    (∃ state, cache.state? url = some state ∧ state.IsOpen ∧ cache.request url true = (.fetch url, cache)) ∨
    cache.state? url = none ∧ cache.request url true = (.load url, cache.start url) := by
  cases known : cache.state? url with
  | none => exact .inr (.inr ⟨rfl,by simp [request,known]⟩)
  | some state =>
    cases state with
    | finished result => exact .inl ⟨result,rfl,by simp [request,known]⟩
    | fetching | linking => exact .inr (.inl ⟨_,rfl,nofun,by simp [request,known]⟩)

section
variable (known : cache.state? url = some (.linking record (dependency :: remaining) none))
include known

lemma ne_of_new (new : cache.state? dependency = none) : dependency ≠ url := by
  rintro rfl
  simp [new] at known

lemma state?_asked (new : cache.state? dependency = none) :
    (cache.asked url record dependency remaining).state? dependency = some .fetching := by
  rw [asked,(sets_setState ..).of_ne (ne_of_new known new).symm,request,new]
  exact (sets_start ..).self

lemma passes_asked : Passes cache (url :: (cache.request dependency true).1.loads)
    (cache.asked url record dependency remaining) := by
  rcases request_cases cache dependency with ⟨_,-,eq⟩ | ⟨_,-,-,eq⟩ | ⟨new,eq⟩ <;> rw [asked,eq]
  · exact passes_setState known nofun _
  · exact passes_setState known nofun _
  · have still := ((sets_start cache dependency).of_ne (ne_of_new known new)).trans known
    exact ((passes_start new).mono (by simp [Awaited.loads])).trans ((passes_setState still nofun _).mono (by simp))

lemma Passes.ask (got : Passes (cache.asked url record dependency remaining)
      ((cache.request dependency true).1.loads) middle)
    (own : ∀ other, (cache.request dependency true).1 = .load other →
      ∃ result, middle.state? other = some (.finished result)) :
    Passes cache [url] middle ∧ middle.state? url =
      some (.linking record (dependency :: remaining) (some (cache.request dependency true).1)) := by
  have whole := (passes_asked known).trans (got.mono (List.subset_cons_self ..))
  have own' : (cache.asked url record dependency remaining).state? url = _ := (sets_setState ..).self
  have here (out : url ∉ (cache.request dependency true).1.loads) := (got.kept (by nofun) out).2 own'
  rcases request_cases cache dependency with ⟨_,-,eq⟩ | ⟨_,-,-,eq⟩ | ⟨new,eq⟩
  · rw [eq] at whole
    exact ⟨whole,here (by simp [eq,Awaited.loads])⟩
  · rw [eq] at whole
    exact ⟨whole,here (by simp [eq,Awaited.loads])⟩
  obtain ⟨result,done⟩ := own dependency (by rw [eq])
  rw [eq] at whole
  refine ⟨(whole.mono ?_).settle new done,here ?_⟩
  · exact (List.Perm.swap dependency url []).subset
  · simpa [eq,Awaited.loads] using (ne_of_new known new).symm

end

/-- A load finishes its module and what is new, and leaves all else as it was. -/
lemma Comes.passes (comes : Comes cache awaited result later) : Passes cache awaited.loads later ∧
      ∀ url, awaited = .load url → later.state? url = some (.finished result) := by
  induction comes with
  | result | fetch => exact ⟨.refl _ _,nofun⟩
  | missing known | linked known =>
    refine ⟨passes_setState known nofun _,?_⟩
    rintro _ ⟨⟩
    exact (sets_setState ..).self
  | fetched known _ _ ih => exact ⟨(passes_setState known nofun _).trans ih.1,ih.2⟩
  | refused known _ ih =>
    obtain ⟨asked,here⟩ := ih.1.ask known fun other same => ⟨_,ih.2 other same⟩
    refine ⟨asked.trans (passes_setState here nofun _),?_⟩
    rintro _ ⟨⟩
    exact (sets_setState ..).self
  | supplied known _ _ got ih =>
    obtain ⟨asked,here⟩ := got.1.ask known fun other same => ⟨_,got.2 other same⟩
    exact ⟨(asked.trans (passes_setState here nofun _)).trans ih.1,ih.2⟩

lemma Comes.ask (known : cache.state? url = some (.linking record (dependency :: remaining) none))
    (got : Comes (cache.asked url record dependency remaining) (cache.request dependency true).1 result
      middle) : Passes cache [url] middle ∧ middle.state? url =
      some (.linking record (dependency :: remaining) (some (cache.request dependency true).1)) :=
  got.passes.1.ask known fun other same => ⟨_,got.passes.2 other same⟩

/-! ### How long a load takes -/

def unseen (cache : ModuleTable) : List ModuleEntry → Nat
  | [] => 0
  | record :: rest => (if cache.state? record.url = none then record.dependencies.length else 0) + cache.unseen rest

def room (cache : ModuleTable) : Nat := cache.unseen cache.source.records

section
variable (stays : ∀ {other}, cache.state? other ≠ none → later.state? other ≠ none)
include stays

lemma unseen_mono (records : List ModuleEntry) : later.unseen records ≤ cache.unseen records := by
  induction records with
  | nil => exact Nat.le_refl 0
  | cons record rest ih =>
    have implied : later.state? record.url = none → cache.state? record.url = none := by
      intro missing
      by_contra known
      exact stays known missing
    simp only [unseen]
    split_ifs with first second
    · omega
    · exact absurd (implied first) second
    · omega
    · omega

lemma unseen_add_le (new : cache.state? record.url = none) (known : later.state? record.url ≠ none)
    (listed : record ∈ records) :
    later.unseen records + record.dependencies.length ≤ cache.unseen records := by
  induction records with
  | nil => cases listed
  | cons first rest ih =>
    rcases List.mem_cons.1 listed with rfl | listed
    · have others := unseen_mono stays rest
      simp only [unseen,if_pos new,if_neg known]
      omega
    · have others := ih listed
      have here := unseen_mono stays [first]
      simp only [unseen] at here ⊢
      omega

end

lemma room_le_edges (cache : ModuleTable) : cache.room ≤ cache.source.edges := by
  have bound (records : List ModuleEntry) (total : Nat) : total + cache.unseen records ≤
      records.foldl (fun total record => total + record.dependencies.length) total := by
    induction records generalizing total with
    | nil => simp [unseen]
    | cons record rest ih =>
      have later := ih (total + record.dependencies.length)
      simp only [unseen,List.foldl_cons]
      split_ifs <;> omega
  simpa [room,ModuleSet.edges] using bound cache.source.records 0

lemma answer_ok {source : ModuleSet} (answer : source.answer url = .ok record) : source.find? url = some record := by
  unfold ModuleSet.answer at answer
  cases found : source.find? url with
  | none => simp [found] at answer
  | some other => simp_all

lemma Passes.room_le (passes : Passes cache touched later) : later.room ≤ cache.room ∧
    ∀ {url record}, cache.state? url = none → later.state? url ≠ none →
      cache.source.answer url = .ok record → record.dependencies.length + later.room ≤ cache.room := by
  rw [room,room,passes.source]
  refine ⟨unseen_mono passes.stays _,fun {url record} new known answer => ?_⟩
  have found := answer_ok answer
  obtain rfl : record.url = url := by simpa using List.find?_some found
  have listed := List.mem_reverse.1 (List.mem_of_find?_eq_some found)
  exact Nat.add_comm .. ▸ unseen_add_le passes.stays new known listed

def Settles (fuel : Nat) (cache : ModuleTable) (awaited : Awaited) : Prop :=
  ∃ result later, poll fuel cache awaited = (some result, later) ∧ Comes cache awaited result later

/-- A dependency is asked for in one turn and awaited in the next. -/
lemma pollLoad_step (known : cache.state? url = some (.linking record (dependency :: remaining) none))
    (fuel : Nat) : pollLoad (fuel + 2) cache url =
      match poll fuel (cache.asked url record dependency remaining) (cache.request dependency true).1 with
      | (none, cache) => (none, cache)
      | (some (.error failure), cache) => cache.finish url (.error (dependencyFailed url dependency failure))
      | (some (.ok _), cache) => pollLoad fuel (cache.setState url (.linking record remaining none)) url := by
  rw [pollLoad,known]
  dsimp only
  rw [pollLoad,(sets_setState ..).self]
  rfl

lemma settles_of_fetching (prompt : cache.Prompt) (known : cache.state? url = some .fetching)
    (linking : ∀ record, cache.source.answer url = .ok record →
      Settles (fuel + 1) (cache.setState url (.linking record record.dependencies none)) (.load url)) :
    Settles (fuel + 2) cache (.load url) := by
  unfold Settles
  rw [poll,pollLoad,known]
  dsimp only
  rw [prompt.pollFetch]
  cases answer : cache.source.answer url with
  | error failure => exact ⟨_,_,rfl,.missing known answer⟩
  | ok record =>
    obtain ⟨result,later,done,comes⟩ := linking record answer
    exact ⟨result,later,done,.fetched known answer comes⟩

/-- Every module that is being linked comes to a result, given six turns for each dependency that it
may still meet. -/
lemma settles_of_linking (fuel : Nat) : ∀ {cache : ModuleTable} {url : String} {record : ModuleEntry}
    {remaining : List String}, cache.Prompt → cache.state? url = some (.linking record remaining none) →
    6 * (remaining.length + cache.room) < fuel → Settles (fuel + 1) cache (.load url) := by
  induction fuel using Nat.strongRecOn with
  | ind fuel ih =>
    intro cache url record remaining prompt known enough
    unfold Settles
    rw [poll]
    cases remaining with
    | nil =>
      obtain ⟨fuel,rfl⟩ := Nat.exists_eq_add_of_le' (show 1 ≤ fuel by omega)
      exact ⟨_,_,by rw [pollLoad,known]; rfl,.linked known⟩
    | cons dependency remaining =>
      rw [List.length_cons] at enough
      obtain ⟨fuel,rfl⟩ := Nat.exists_eq_add_of_le' (show 2 ≤ fuel by omega)
      have asking := passes_asked known
      -- What the dependency is asked for comes: at once, or because its load has more room.
      have got : Settles fuel (cache.asked url record dependency remaining) (cache.request dependency true).1 := by
        have prompt := asking.prompt prompt
        rcases request_cases cache dependency with ⟨result,-,eq⟩ | ⟨_,-,-,eq⟩ | ⟨new,eq⟩
        · rw [eq]
          exact ⟨_,_,by rw [poll],.result _ _⟩
        · rw [eq]
          exact ⟨_,_,by rw [poll,prompt.pollFetch],.fetch _ _⟩
        have started := state?_asked known new
        obtain ⟨fuel,rfl⟩ := Nat.exists_eq_add_of_le' (show 2 ≤ fuel by omega)
        rw [eq] at asking ⊢
        refine settles_of_fetching prompt started fun other answer => ?_
        have linking := passes_setState started nofun (.linking other other.dependencies none)
        have space := (asking.trans (linking.mono (by simp [Awaited.loads]))).room_le.2 new
          (by simp [sets_setState .. |>.self]) (by rwa [← asking.source])
        exact ih fuel (by omega) (linking.prompt prompt) (sets_setState ..).self (by omega)
      obtain ⟨result,middle,polled,comes⟩ := got
      obtain ⟨passes,here⟩ := comes.ask known
      rw [pollLoad_step known,polled]
      cases result with
      | error failure => exact ⟨_,_,rfl,.refused known comes⟩
      | ok other =>
        have moved := passes.trans (passes_setState here nofun (.linking record remaining none))
        have fewer := moved.room_le.1
        obtain ⟨last,later,done,rest⟩ := ih fuel (by omega) (moved.prompt prompt) (sets_setState ..).self (by omega)
        exact ⟨last,later,done,.supplied known comes rest⟩

/-! ### Requests -/

structure Settled (cache : ModuleTable) : Prop where
  prompt : cache.Prompt
  idle : ∀ {url state}, state.IsOpen → cache.state? url ≠ some state

lemma Settled.cases (settled : cache.Settled) (url : String) :
    cache.state? url = none ∨ ∃ result, cache.state? url = some (.finished result) := by
  cases known : cache.state? url with
  | none => exact .inl rfl
  | some state =>
    cases state with
    | finished result => exact .inr ⟨result,rfl⟩
    | fetching | linking => exact absurd known (settled.idle nofun)

lemma Settled.passes (settled : cache.Settled) (passes : Passes cache [] later) : later.Settled :=
  ⟨passes.prompt settled.prompt,
    fun isOpen there => settled.idle isOpen ((passes.kept isOpen List.not_mem_nil).1 there)⟩

lemma Comes.settles (comes : Comes (cache.start url) (.load url) result later)
    (new : cache.state? url = none) : Passes cache [] later :=
  ((passes_start new).trans comes.passes.1).settle new (comes.passes.2 url rfl)

lemma Settled.load (settled : cache.Settled) (new : cache.state? url = none) :
    Settles cache.turns (cache.start url) (.load url) := by
  have known := (sets_start cache url).self
  have starts := passes_start new
  have prompt := settled.prompt.start new
  refine settles_of_fetching prompt known fun record answer => ?_
  have linking := passes_setState known nofun (.linking record record.dependencies none)
  have here := (sets_setState (cache.start url) url (.linking record record.dependencies none)).self
  have space := (starts.trans linking).room_le.2 new (by simp [here]) answer
  have bound := room_le_edges cache
  exact settles_of_linking _ (linking.prompt prompt) here (by omega)

/-- Modules are asked for in turn, and each is answered: with what has come of it before, or with
what a new load comes to. -/
inductive Resolves : ModuleTable → List String → List LoadOutcome → ModuleTable → Prop
  | done (cache : ModuleTable) : Resolves cache [] [] cache
  | again {cache later : ModuleTable} {url urls result results}
    (known : cache.state? url = some (.finished result)) (rest : Resolves cache urls results later) :
    Resolves cache (url :: urls) (result :: results) later
  | anew {cache middle later : ModuleTable} {url urls result results} (new : cache.state? url = none)
    (comes : Comes (cache.start url) (.load url) result middle)
    (rest : Resolves middle urls results later) : Resolves cache (url :: urls) (result :: results) later

variable {urls others : List String} {results more : List LoadOutcome}

lemma Resolves.append (resolves : Resolves cache urls results middle) (rest : Resolves middle others more later) :
    Resolves cache (urls ++ others) (results ++ more) later := by
  induction resolves with
  | done => exact rest
  | again known _ ih => exact .again known (ih rest)
  | anew new comes _ ih => exact .anew new comes (ih rest)

section
variable (resolves : Resolves cache urls results later)
include resolves

lemma Resolves.passes : Passes cache [] later := by
  induction resolves with
  | done => exact .refl ..
  | again _ _ ih => exact ih
  | anew new comes _ ih => exact (comes.settles new).trans ih

lemma Resolves.answers : urls.Forall₂ (fun url result => later.state? url = some (.finished result)) results := by
  induction resolves with
  | done => exact .nil
  | again known rest ih => exact .cons (rest.passes.finished known) ih
  | anew _ comes rest ih => exact .cons (rest.passes.finished (comes.passes.2 _ rfl)) ih

lemma Resolves.induction {property : ModuleTable → Prop}
    (step : ∀ {cache url result later}, Settled cache → property cache → cache.state? url = none →
      Comes (cache.start url) (.load url) result later → property later)
    (settled : cache.Settled) (holds : property cache) : property later := by
  induction resolves with
  | done => exact holds
  | again _ _ ih => exact ih settled holds
  | anew new comes _ ih => exact ih (settled.passes (comes.settles new)) (step settled holds new comes)

end

section
variable (settled : cache.Settled)
include settled

lemma Settled.pollTasks (urls : List String) : ∃ results later, Resolves cache urls results later ∧
    cache.pollTasks (urls.map Task.waiting) = (results.map Task.done, later) := by
  induction urls generalizing cache with
  | nil => exact ⟨[],cache,.done cache,rfl⟩
  | cons url rest ih =>
    rcases settled.cases url with new | ⟨result,known⟩
    · obtain ⟨result,middle,polled,comes⟩ := settled.load new
      obtain ⟨results,later,resolves,rest⟩ := ih (settled.passes (comes.settles new))
      refine ⟨result :: results,later,.anew new comes resolves,?_⟩
      simp only [List.map_cons,ModuleTable.pollTasks,pollTask,request,new]
      rw [show (cache.start url).turns = cache.turns from rfl,polled]
      simp only [rest]
    · obtain ⟨results,later,resolves,rest⟩ := ih settled
      refine ⟨result :: results,later,.again known resolves,?_⟩
      simp only [List.map_cons,ModuleTable.pollTasks,pollTask,request,known,poll,rest]

lemma Settled.loadAll (urls : List String) : Resolves cache urls (cache.loadAll urls).1 (cache.loadAll urls).2 := by
  obtain ⟨results,later,resolves,polled⟩ := settled.pollTasks urls
  have single : cache.source.totalDelay = 0 := by simp [ModuleSet.totalDelay,settled.prompt.delays]
  have finished : ((results.map Task.done).all fun task => task.result?.isSome) = true := by simp [Task.result?]
  have listed : (urls.zip (results.map Task.done)).map
      (fun entry => entry.2.result?.getD (.error (unfinished entry.1))) = results := by
    simp only [List.zip_map_right,List.map_map]
    exact List.map_snd_zip resolves.answers.length_eq.symm.le
  have eq : cache.loadAll urls = (results, later) := by
    simp only [ModuleTable.loadAll,single,rounds,polled,finished,if_true]
    exact Prod.ext listed rfl
  rwa [eq]

lemma Settled.load_eq (url : String) : (cache.load url).2.state? url = some (.finished (cache.load url).1) := by
  have resolves := settled.loadAll [url]
  obtain ⟨result,_,here,-,all⟩ := List.forall₂_cons_left_iff.1 resolves.answers
  simpa [ModuleTable.load,all] using here

end

def after (records : List ModuleEntry) (history : List (List String)) : ModuleTable :=
  history.foldl (fun cache urls => (cache.loadAll urls).2) { source := { records } }

lemma Settled.foldl (settled : cache.Settled) (history : List (List String)) : ∃ results,
    Resolves cache history.flatten results (history.foldl (fun cache urls => (cache.loadAll urls).2) cache) := by
  induction history generalizing cache with
  | nil => exact ⟨[],.done cache⟩
  | cons urls rest ih =>
    have first := settled.loadAll urls
    obtain ⟨results,others⟩ := ih (settled.passes first.passes)
    exact ⟨_,first.append others⟩

lemma settled_start (records : List ModuleEntry) : Settled { source := { records } } :=
  ⟨⟨rfl,nofun,List.nodup_nil,fun _ => by simp [state?,Keyed.get?]⟩,nofun⟩

lemma settled_after (records : List ModuleEntry) (history : List (List String)) : (after records history).Settled := by
  obtain ⟨_,resolves⟩ := (settled_start records).foldl history
  exact (settled_start records).passes resolves.passes

lemma result?_eq_some : cache.result? url = some result ↔ cache.state? url = some (.finished result) := by
  unfold result?
  split <;> simp_all

lemma Settled.ncard_results (settled : cache.Settled) :
    {url | (cache.result? url).isSome}.ncard = cache.fetchTotal := by
  have same : {url | (cache.result? url).isSome} = ((cache.fetches.map Prod.fst).toFinset : Set String) := by
    ext url
    rw [List.coe_toFinset,Set.mem_ofPred_eq,Set.mem_ofPred_eq,settled.prompt.known]
    rcases settled.cases url with new | ⟨result,known⟩
    · simp [result?,new]
    · simp [result?,known]
  rw [same,Set.ncard_coe_finset,List.toFinset_card_of_nodup settled.prompt.once,List.length_map]
  rfl

/-- Whatever was asked for before, every request is answered with what has come of the module. No module
is fetched twice or left under way, and what has come of a module once is its answer ever after. -/
theorem loads_finish_and_fetch_once (records : List ModuleEntry) (history : List (List String)) :
    (∀ urls : List String, urls.Forall₂ (fun url result =>
      ((after records history).loadAll urls).2.result? url = some result)
      ((after records history).loadAll urls).1) ∧
    ((after records history).fetches.map Prod.fst).Nodup ∧
    {url | ((after records history).result? url).isSome}.ncard = (after records history).fetchTotal ∧
    (∀ url state, (after records history).state? url = some state → ∃ result, state = .finished result) ∧
    ∀ url result, (after records history).result? url = some result →
      ∀ more, ((after records (history ++ more)).load url).1 = result := by
  have settled := settled_after records history
  refine ⟨fun urls => ?_, settled.prompt.once, settled.ncard_results, fun url state known => ?_,
    fun url result known more => ?_⟩
  · exact (settled.loadAll urls).answers.imp fun _ _ => result?_eq_some.mpr
  · rcases settled.cases url with new | ⟨result, done⟩
    · cases new.symm.trans known
    · exact ⟨result, Option.some.inj (known.symm.trans done)⟩
  · obtain ⟨_, later⟩ := settled.foldl more
    rw [after, List.foldl_append, ← after]
    have still := later.passes.finished (result?_eq_some.mp known)
    have settled := settled.passes later.passes
    have kept := (settled.loadAll [url]).passes.finished still
    exact LoadState.finished.inj (Option.some.inj ((settled.load_eq url).symm.trans kept))

/-- Two modules that need each other, one of which also needs a module that is not there. -/
def brokenCycle : List ModuleEntry := [⟨"a",["A"],["b","gone"]⟩,⟨"b",["B"],["a"]⟩]

/-- Each of the three modules of a cycle that fails is fetched once, and what came of them stays. -/
theorem brokenCycle_finishes : (after brokenCycle [["a"], ["b", "gone"]]).fetchTotal = 3 ∧
    ∀ more, ((after brokenCycle ([["a"], ["b", "gone"]] ++ more)).load "b").1 = .ok ⟨"b", ["B"], ["a"]⟩ :=
  ⟨by decide, (loads_finish_and_fetch_once brokenCycle [["a"], ["b", "gone"]]).2.2.2.2 "b" _ (by decide)⟩

end ModuleTable
end Resumable
