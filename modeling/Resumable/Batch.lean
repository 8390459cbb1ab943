import Resumable.Cache
import Resumable.Files.Scripts

/-! Compilation of all scripts below a folder. A script that fails does not stop the others. -/
namespace Resumable

structure FileResult where
  path : String
  result : Except Diagnostic Compiled
  cached : Bool := false

namespace FileResult

def unreadable (path : String) : Diagnostic :=
  { invariant := .inputOutput
    message := "Failed to read file: not a text"
    file := path }

def ofSource (cache : Option String) (options : Options) (path source : String) (files : Files) :
    FileResult × Files :=
  let options := { options with filename := path }
  let (kept, files) := match cache with
    | some folder => Cache.get folder path source options files
    | none => (none, files)
  match kept with
  | some output => ({ path, result := .ok output, cached := true }, files)
  | none =>
    match compile source options with
    | .ok output =>
      let files := match cache with
        | some folder => Cache.set folder path source options output files
        | none => files
      ({ path, result := .ok output }, files)
    | .error failure => ({ path, result := .error failure }, files)

def ofPath (cache : Option String) (options : Options) (path : String) (files : Files) :
    FileResult × Files :=
  match files.text? path with
  | some source => ofSource cache options path source files
  | none => ({ path, result := .error (unreadable path) }, files)

def ofPaths (cache : Option String) (options : Options) : List String → Files → List FileResult × Files
  | [], files => ([], files)
  | path :: rest, files =>
    let (first, files) := ofPath cache options path files
    let (others, files) := ofPaths cache options rest files
    (first :: others, files)

end FileResult

def compileTree (cache : Option String) (options : Options) (root : String) (files : Files) :
    List FileResult × Files :=
  FileResult.ofPaths cache options (files.scripts root) files

end Resumable
