/-! Lists of named values, in the order in which the names were first given. -/
namespace Resumable.Keyed

/-- Puts a value under a name; a name that is there already keeps its place. -/
def insert {α : Type} (name : String) (value : α) : List (String × α) → List (String × α)
  | [] => [(name, value)]
  | entry :: rest =>
    if entry.1 == name then (name, value) :: rest else entry :: insert name value rest

def get? {α : Type} (name : String) : List (String × α) → Option α
  | [] => none
  | entry :: rest => if entry.1 == name then some entry.2 else get? name rest

end Resumable.Keyed
