import Resumable.Keyed
import Resumable.Modules.Basic

/-! Loading of modules with their dependencies. Each URL is fetched at most once. A load goes on as
far as it can whenever it is asked for; asking again takes up where it stopped. -/
namespace Resumable

abbrev LoadOutcome := Except Diagnostic ModuleEntry

structure Fetch where
  delay : Nat
  answer : LoadOutcome

inductive Awaited where
  | result (result : LoadOutcome)
  | fetch (url : String)
  | load (url : String)

inductive LoadState where
  | fetching
  | linking (record : ModuleEntry) (remaining : List String) (awaited : Option Awaited)
  | finished (result : LoadOutcome)

structure ModuleTable where
  source : ModuleSet
  fetches : List (String × Fetch) := []
  loads : List (String × LoadState) := []

namespace ModuleTable

def state? (cache : ModuleTable) (url : String) : Option LoadState := Keyed.get? url cache.loads

def setState (cache : ModuleTable) (url : String) (state : LoadState) : ModuleTable :=
  { cache with loads := Keyed.insert url state cache.loads }

def result? (cache : ModuleTable) (url : String) : Option LoadOutcome :=
  match cache.state? url with
  | some (.finished result) => some result
  | _ => none

def loaded? (cache : ModuleTable) (url : String) : Option ModuleEntry :=
  match cache.result? url with
  | some (.ok record) => some record
  | _ => none

def failure? (cache : ModuleTable) (url : String) : Option Diagnostic :=
  match cache.result? url with
  | some (.error failure) => some failure
  | _ => none

def fetchTotal (cache : ModuleTable) : Nat := cache.fetches.length

def start (cache : ModuleTable) (url : String) : ModuleTable :=
  let fetch : Fetch := ⟨cache.source.delay url,cache.source.answer url⟩
  { cache with
    fetches := cache.fetches ++ [(url, fetch)]
    loads := Keyed.insert url .fetching cache.loads }

/-- Asks for a module. One that is being loaded may itself wait for who asks, so a dependent only
waits for its record. -/
def request (cache : ModuleTable) (url : String) (isDependency : Bool) : Awaited × ModuleTable :=
  match cache.state? url with
  | some (.finished result) => (.result result, cache)
  | some _ => (if isDependency then .fetch url else .load url, cache)
  | none => (.load url, cache.start url)

def pollFetch (cache : ModuleTable) (url : String) : Option LoadOutcome × ModuleTable :=
  match Keyed.get? url cache.fetches with
  | some ⟨delay + 1,answer⟩ =>
    (none, { cache with fetches := Keyed.insert url ⟨delay,answer⟩ cache.fetches })
  | some ⟨0,answer⟩ => (some answer, cache)
  | none => (some (cache.source.answer url), cache)

def dependencyFailed (url dependency : String) (failure : Diagnostic) : Diagnostic :=
  { invariant := .moduleLoad
    message := "Module '" ++ url ++ "' failed to load because its dependency '" ++ dependency ++
      "' failed: " ++ failure.message
    context := some url }

def finish (cache : ModuleTable) (url : String) (result : LoadOutcome) : Option LoadOutcome × ModuleTable :=
  (some result, cache.setState url (.finished result))

mutual

def poll : Nat → ModuleTable → Awaited → Option LoadOutcome × ModuleTable
  | _, cache, .result result => (some result, cache)
  | _, cache, .fetch url => cache.pollFetch url
  | 0, cache, .load _ => (none, cache)
  | fuel + 1, cache, .load url => pollLoad fuel cache url

/-- Takes a load as far as it goes: first the record, then one dependency after the other. The
first that fails makes the load fail. -/
def pollLoad : Nat → ModuleTable → String → Option LoadOutcome × ModuleTable
  | 0, cache, _ => (none, cache)
  | fuel + 1, cache, url =>
    match cache.state? url with
    | none => (none, cache)
    | some (.finished result) => (some result, cache)
    | some .fetching =>
      match cache.pollFetch url with
      | (none, cache) => (none, cache)
      | (some (.error failure), cache) => cache.finish url (.error failure)
      | (some (.ok record), cache) =>
        pollLoad fuel (cache.setState url (.linking record record.dependencies none)) url
    | some (.linking record [] _) => cache.finish url (.ok record)
    | some (.linking record (dependency :: remaining) none) =>
      let (awaited, cache) := cache.request dependency true
      pollLoad fuel (cache.setState url (.linking record (dependency :: remaining) (some awaited))) url
    | some (.linking record (dependency :: remaining) (some awaited)) =>
      match poll fuel cache awaited with
      | (none, cache) => (none, cache)
      | (some (.error failure), cache) =>
        cache.finish url (.error (dependencyFailed url dependency failure))
      | (some (.ok _), cache) => pollLoad fuel (cache.setState url (.linking record remaining none)) url

end

/-- Enough for any load: each URL is met as a load at most once on the way down, with one turn for
its record and two for each of its dependencies. -/
def turns (cache : ModuleTable) : Nat := 6 * cache.source.edges + 8

inductive Task where
  | waiting (url : String)
  | started (awaited : Awaited)
  | done (result : LoadOutcome)

def pollTask (cache : ModuleTable) : Task → Task × ModuleTable
  | .done result => (.done result, cache)
  | .started awaited =>
    match poll cache.turns cache awaited with
    | (some result, cache) => (.done result, cache)
    | (none, cache) => (.started awaited, cache)
  | .waiting url =>
    let (awaited, cache) := cache.request url false
    match poll cache.turns cache awaited with
    | (some result, cache) => (.done result, cache)
    | (none, cache) => (.started awaited, cache)

def pollTasks (cache : ModuleTable) : List Task → List Task × ModuleTable
  | [] => ([], cache)
  | task :: rest =>
    let (task, cache) := cache.pollTask task
    let (rest, cache) := cache.pollTasks rest
    (task :: rest, cache)

def Task.result? : Task → Option LoadOutcome
  | .done result => some result
  | _ => none

def rounds : Nat → ModuleTable → List Task → List Task × ModuleTable
  | 0, cache, tasks => (tasks, cache)
  | fuel + 1, cache, tasks =>
    let (tasks, cache) := cache.pollTasks tasks
    if tasks.all fun task => task.result?.isSome then (tasks, cache) else rounds fuel cache tasks

def unfinished (url : String) : Diagnostic :=
  { invariant := .moduleLoad, message := "Module '" ++ url ++ "' is still loading" }

/-- Loads several modules at once. A round in which some task is not done uses up part of a delay,
so the delays bound the number of rounds. -/
def loadAll (cache : ModuleTable) (urls : List String) : List LoadOutcome × ModuleTable :=
  let (tasks, cache) := rounds (cache.source.totalDelay + 1) cache (urls.map Task.waiting)
  ((urls.zip tasks).map fun (url, task) => task.result?.getD (.error (unfinished url)), cache)

def load (cache : ModuleTable) (url : String) : LoadOutcome × ModuleTable :=
  let (results, cache) := cache.loadAll [url]
  (results.head?.getD (.error (unfinished url)), cache)

def notExported (target : ExportName) : Diagnostic :=
  { invariant := .notExported
    message := "Module '" ++ target.url ++ "' has no export '" ++ target.name ++ "'"
    context := some target.url }

def loadExport (cache : ModuleTable) (target : ExportName) : LoadOutcome × ModuleTable :=
  match cache.load target.url with
  | (.ok record, cache) =>
    (if record.offers target.name then .ok record else .error (notExported target), cache)
  | (.error failure, cache) => (.error failure, cache)

end ModuleTable

end Resumable
