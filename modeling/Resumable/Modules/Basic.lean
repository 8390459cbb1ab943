import Resumable.Diagnostic

/-! Modules and where they come from. -/
namespace Resumable

structure ModuleEntry where
  url : String
  exports : List String
  dependencies : List String := []
  deriving DecidableEq, Repr

def ModuleEntry.offers (record : ModuleEntry) (name : String) : Bool := record.exports.contains name

structure ExportName where
  url : String
  name : String
  deriving DecidableEq, Repr

/-- A fixed set of modules. An answer may take a while: it is asked for in vain as often as its
delay says. -/
structure ModuleSet where
  /-- Of two records with one URL the later one counts. -/
  records : List ModuleEntry := []
  delays : List (String × Nat) := []
  deriving DecidableEq, Repr

namespace ModuleSet

def notFound (url : String) : Diagnostic :=
  { invariant := .moduleLoad, message := "Module '" ++ url ++ "' not found", context := some url }

def find? (source : ModuleSet) (url : String) : Option ModuleEntry :=
  source.records.reverse.find? fun record => record.url == url

def answer (source : ModuleSet) (url : String) : Except Diagnostic ModuleEntry :=
  match source.find? url with
  | some record => .ok record
  | none => .error (notFound url)

def delay (source : ModuleSet) (url : String) : Nat :=
  ((source.delays.reverse.find? fun entry => entry.1 == url).map (·.2)).getD 0

def edges (source : ModuleSet) : Nat :=
  source.records.foldl (fun total record => total + record.dependencies.length) 0

def totalDelay (source : ModuleSet) : Nat := source.delays.foldl (fun total entry => total + entry.2) 0

end ModuleSet

end Resumable
