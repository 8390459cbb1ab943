import Resumable.Script.Tree

/-! The names that patterns introduce. Default values, computed keys and decorators are not entered:
what they bind is their own. -/
namespace Resumable.Script

namespace Pattern

mutual

def names : Pattern → List Ident
  | .bind id => [id]
  | .object fields => namesOfAll fields
  | .field _ _ value => value.names
  | .array elements => namesOfAll elements
  | .hole => []
  | .rest pattern => pattern.names
  | .slot _ pattern _ => pattern.names

def namesOfAll : List Pattern → List Ident
  | [] => []
  | pattern :: others => pattern.names ++ namesOfAll others

end

end Pattern

namespace Params

section
variable (enter : List Expr → List Ident → List Ident)

mutual

/-- A walk over a pattern. `enter` is what it does with the expressions in it. -/
def collect (found : List Ident) : Pattern → List Ident
  | .bind id => id :: found
  | .object fields => collectAll found fields
  | .field _ keyParts value => collect (enter keyParts found) value
  | .array elements => collectAll found elements
  | .hole => found
  | .rest pattern => collect found pattern
  | .slot decorators pattern initial => enter initial (collect (enter decorators found) pattern)

def collectAll (found : List Ident) : List Pattern → List Ident
  | [] => found
  | pattern :: others => collectAll (collect found pattern) others

end
end

/-- No expression is entered. -/
def names (params : List Pattern) : List Ident := (collectAll (fun _ found => found) [] params).reverse

end Params

def Stmt.introducedNames : Stmt → List Ident
  | .variableDecl _ slots _ => Pattern.namesOfAll slots
  | .function literal => Params.names literal.params
  | .expression value _ =>
    match value.ungrouped with
    | .function literal | .arrow literal => Params.names literal.params
    | _ => []
  | _ => []

end Resumable.Script
