import Resumable.Files.Path

/-! Folders and files. A place is the list of names that lead to it from the top; links are followed
wherever a path leads through one. -/
namespace Resumable

abbrev Place := List String

inductive Content where
  | file (bytes : List UInt8)
  | folder
  | link (target : String)
  deriving DecidableEq, Repr

structure Files where
  entries : List (Place × Content) := []
  deriving DecidableEq, Repr

namespace Files

def content? (files : Files) (place : Place) : Option Content :=
  if place.isEmpty then some .folder
  else (files.entries.find? fun entry => entry.1 == place).map (·.2)

def put (files : Files) (place : Place) (content : Content) : Files :=
  ⟨files.entries.filter (fun entry => entry.1 != place) ++ [(place, content)]⟩

def linkLimit : Nat := 40

def follow (files : Files) (links : Nat) (place : Place) (names : List String) : Option Place :=
  match names with
  | [] => some place
  | ".." :: rest => files.follow links place.dropLast rest
  | name :: rest =>
    match files.content? (place ++ [name]) with
    | some .folder => files.follow links (place ++ [name]) rest
    | some (.file _) => if rest.isEmpty then some (place ++ [name]) else none
    | some (.link target) =>
      match links with
      | 0 => none
      | links + 1 => files.follow links place (Path.components target ++ rest)
    | none => none
termination_by (links, names.length)

def locate? (files : Files) (path : String) : Option Place :=
  if path.isEmpty then none else files.follow linkLimit [] (Path.components path)

def folderAt? (files : Files) (path : String) : Option Place :=
  (files.locate? path).filter fun place => files.content? place == some .folder

def bytes? (files : Files) (path : String) : Option (List UInt8) :=
  match (files.locate? path).bind files.content? with
  | some (.file bytes) => some bytes
  | _ => none

def text? (files : Files) (path : String) : Option String :=
  (files.bytes? path).bind fun bytes => String.fromUTF8? ⟨bytes.toArray⟩

def makeFolders (files : Files) (links : Nat) (place : Place) (names : List String) :
    Option (Place × Files) :=
  match names with
  | [] => some (place, files)
  | ".." :: rest => files.makeFolders links place.dropLast rest
  | name :: rest =>
    let next := place ++ [name]
    match files.content? next with
    | some .folder => files.makeFolders links next rest
    | some (.file _) => none
    | some (.link target) =>
      match links with
      | 0 => none
      | links + 1 => files.makeFolders links place (Path.components target ++ rest)
    | none => (files.put next .folder).makeFolders links next rest
termination_by (links, names.length)

def makeFolder (files : Files) (path : String) : Files :=
  ((files.makeFolders linkLimit [] (Path.components path)).map (·.2)).getD files

def putAt (files : Files) (path : String) (content : Content) (through : Bool) : Option Files :=
  match (Path.components path).reverse with
  | [] => none
  | name :: folder =>
    match files.follow linkLimit [] folder.reverse with
    | none => none
    | some place =>
      match files.content? place, files.content? (place ++ [name]) with
      | some .folder, none => some (files.put (place ++ [name]) content)
      | some .folder, some (.file _) =>
        if through then some (files.put (place ++ [name]) content) else none
      | some .folder, some (.link _) =>
        match through, files.follow linkLimit place [name] with
        | true, some target =>
          match files.content? target with
          | some (.file _) => some (files.put target content)
          | _ => none
        | _, _ => none
      | _, _ => none

def write? (files : Files) (path : String) (bytes : List UInt8) : Option Files :=
  files.putAt path (.file bytes) true

def makeParent (files : Files) (path : String) : Files :=
  match (Path.components path).reverse with
  | [] => files
  | _ :: folder => ((files.makeFolders linkLimit [] folder.reverse).map (·.2)).getD files

def remove (files : Files) (path : String) : Files :=
  match (Path.components path).reverse with
  | [] => files
  | name :: folder =>
    match files.follow linkLimit [] folder.reverse with
    | some place =>
      let removed := place ++ [name]
      ⟨files.entries.filter fun entry => !removed.isPrefixOf entry.1⟩
    | none => files

def namesIn (files : Files) (place : Place) : List String :=
  let inside := files.entries.filterMap fun (other, _) =>
    match other.getLast? with
    | some name => if other.dropLast == place then some name else none
    | none => none
  inside.mergeSort fun a b => decide (a ≤ b)

def list (files : Files) (path : String) : List String := ((files.folderAt? path).map files.namesIn).getD []

end Files

end Resumable
