import Resumable.Options
import Resumable.Regular.Reading

/-! Which functions and classes of a program become closures of their own, by their names. -/
namespace Resumable

inductive Selection where
  | all
  | pattern (text : String) (expr : Regular.Expr)
  | custom (accepts : String → Bool)

namespace Selection

def selects : Selection → String → Bool
  | all, _ => true
  | pattern _ expr, name => expr.occursIn name
  | custom accepts, name => accepts name

def startingWith (start : String) : Selection := custom fun name => start.toList.isPrefixOf name.toList

def shown : Selection → String
  | all => "All"
  | pattern text _ => "Pattern(" ++ Text.shown text ++ ")"
  | custom _ => "Custom(..)"

end Selection

def Options.invalidPattern (text : String) : Diagnostic :=
  { invariant := .invalidOptions
    message := "Invalid selectClosures pattern: not a regular expression"
    context := some text }

def Options.selection (options : Options) : Except Diagnostic Selection :=
  match options.selectClosures with
  | none => .ok .all
  | some text =>
    match Regular.Expr.ofText? text with
    | some expr => .ok (.pattern text expr)
    | none => .error (invalidPattern text)

end Resumable
