import Resumable.Files.Basic

/-! The scripts below a folder, in the order of their names, folder by folder. -/
namespace Resumable.Files

def scriptSuffixes : List String := ["js","mjs","jsx","ts","mts","tsx"]

def isScript (path : String) : Bool :=
  !(Path.components path).contains "node_modules" &&
    ((Path.extensions path).head?.map scriptSuffixes.contains).getD false

def filesBelow (files : Files) : Nat → List Place → String → List String
  | 0, _, _ => []
  | depth + 1, around, path =>
    match files.locate? path with
    | none => []
    | some place =>
      match files.content? place with
      | some (.file _) => [path]
      | some .folder =>
        (files.namesIn place).flatMap fun name =>
          let inner := Path.join path name
          let returns := match files.content? (place ++ [name]) with
            | some (.link _) =>
              ((files.locate? inner).map fun target => (place :: around).contains target).getD false
            | _ => false
          if returns then [] else files.filesBelow depth (place :: around) inner
      | _ => []

/-- The scripts at and below a path. A walk meets no folder more than twice on its way down, so
twice the number of entries bounds its depth. -/
def scripts (files : Files) (path : String) : List String :=
  (files.filesBelow (2 * files.entries.length + 4) [] path).filter isScript

end Resumable.Files
