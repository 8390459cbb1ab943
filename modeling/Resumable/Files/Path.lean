/-! Paths: names with slashes between them. -/
namespace Resumable.Path

def pieces (mark : Char) : List Char → List (List Char)
  | [] => [[]]
  | c :: rest =>
    match pieces mark rest with
    | piece :: others => if c == mark then [] :: piece :: others else (c :: piece) :: others
    | [] => [[c]]

def components (path : String) : List String :=
  ((pieces '/' path.toList).map String.ofList).filter fun name => name != "" && name != "."

def lastComponent (path : String) : List Char :=
  let trimmed := (path.toList.reverse.dropWhile (· == '/')).reverse
  (pieces '/' trimmed).getLast?.getD []

def extensions (path : String) : List String :=
  match pieces '.' (lastComponent path) with
  | [] => []
  | [_] => []
  | [[],_] => []
  | _ :: parts => (parts.map String.ofList).reverse

def join (folder name : String) : String :=
  if folder.isEmpty then name
  else if folder.toList.getLast? == some '/' then folder ++ name
  else folder ++ "/" ++ name

end Resumable.Path
