import Resumable.Compile

/-! The names that parameters bind. Two walks look for them, one over each pattern and one over the whole list
that gathers what it comes to; both find the identifiers of the patterns themselves, in order, and neither
looks into the expressions between them. -/
namespace Resumable.Script

namespace Pattern

mutual

/-- A pattern without the expressions in it. -/
def bare : Pattern → Pattern
  | .bind id => .bind id
  | .object fields => .object (bareOfAll fields)
  | .field key _ value => .field key [] value.bare
  | .array elements => .array (bareOfAll elements)
  | .hole => .hole
  | .rest pattern => .rest pattern.bare
  | .slot _ pattern _ => .slot [] pattern.bare []

def bareOfAll : List Pattern → List Pattern
  | [] => []
  | pattern :: others => pattern.bare :: bareOfAll others

end

mutual

theorem names_bare : ∀ pattern : Pattern, pattern.bare.names = pattern.names
  | .bind _ => rfl
  | .object fields => namesOfAll_bare fields
  | .field _ _ value => names_bare value
  | .array elements => namesOfAll_bare elements
  | .hole => rfl
  | .rest pattern => names_bare pattern
  | .slot _ pattern _ => names_bare pattern

theorem namesOfAll_bare : ∀ patterns : List Pattern, namesOfAll (bareOfAll patterns) = namesOfAll patterns
  | [] => rfl
  | pattern :: others => by simp [namesOfAll,bareOfAll,names_bare pattern,namesOfAll_bare others]

end

mutual

theorem collect_eq : ∀ (pattern : Pattern) (found : List Ident),
    Params.collect (fun _ found => found) found pattern = pattern.names.reverse ++ found
  | .bind _, _ => rfl
  | .object fields, found => collectAll_eq fields found
  | .field _ _ value, found => collect_eq value found
  | .array elements, found => collectAll_eq elements found
  | .hole, _ => rfl
  | .rest pattern, found => collect_eq pattern found
  | .slot _ pattern _, found => collect_eq pattern found

theorem collectAll_eq : ∀ (patterns : List Pattern) (found : List Ident),
    Params.collectAll (fun _ found => found) found patterns = (namesOfAll patterns).reverse ++ found
  | [], _ => rfl
  | pattern :: others, found => by simp [Params.collectAll,namesOfAll,collect_eq pattern,collectAll_eq others]

end

theorem namesOfAll_eq_flatMap (patterns : List Pattern) : namesOfAll patterns = patterns.flatMap names := by
  induction patterns with
  | nil => rfl
  | cons pattern others ih => rw [namesOfAll,ih,List.flatMap_cons]

end Pattern

/-! ### Types

A type is read after a pattern and nothing is kept of it. -/

namespace Parse

variable {α : Type} {property : Context → Pattern → Prop} {first : Parse α} {next : α → Parse Pattern}

/-- Each pattern that is read has a property. -/
def Yields (property : Context → Pattern → Prop) (parse : Parse Pattern) : Prop :=
  ∀ context state element after, parse context state = .done element after → property context element

theorem Yields.bind (rest : ∀ context state value middle, first context state = .done value middle →
    ∀ element after, next value context middle = .done element after → property context element) :
    Yields property (first >>= next) := by
  intro context state element after read
  simp only [Bind.bind] at read
  split at read
  · exact rest _ _ _ _ ‹_› _ _ read
  · cases read

theorem Yields.after (rest : ∀ value, Yields property (next value)) : Yields property (first >>= next) :=
  .bind fun context _ value middle _ => rest value context middle

theorem Yields.optional {condition : Prop} [Decidable condition] {action : Parse Unit} {next : Unit → Parse Pattern}
    (rest : ∀ value, Yields property (next value)) :
    Yields property (if condition then action >>= next else next ()) := by
  split
  · exact .after rest
  · exact rest ()

theorem Yields.pure {pattern : Pattern} (holds : ∀ context, property context pattern) :
    Yields property (Pure.pure pattern) := by
  rintro context _ _ _ ⟨⟩
  exact holds context

end Parse

/-- A pattern has the names of one that the rule for patterns reads. -/
def Rules.ReadsNames (r : Rules) (context : Context) (element : Pattern) : Prop :=
  ∃ before pattern behind, r.pattern context before = .done pattern behind ∧ element.names = pattern.names

namespace Rules
open Parse
variable (r : Rules)

theorem readsNames {next : Pattern → Parse Pattern}
    (rest : ∀ pattern, Yields (fun _ element => element.names = pattern.names) (next pattern)) :
    Yields r.ReadsNames (r.pattern >>= next) :=
  .bind fun context state pattern middle first element after read =>
    ⟨state,pattern,middle,first,rest pattern context middle element after read⟩

theorem readsNames_parameter : Yields r.ReadsNames (Grammar.parameter r) := by
  refine .after fun decorators => .after fun dialect => .optional fun _ => r.readsNames fun pattern => ?_
  exact .after fun dialect => .optional fun _ => .after fun _ => .after fun initial => .pure fun _ => rfl

theorem readsNames_element : Yields r.ReadsNames (Grammar.patternElement r) := by
  refine r.readsNames fun pattern => .after fun dialect => .optional fun _ => .after fun _ => ?_
  refine .after fun initial => .pure fun _ => ?_
  unfold Grammar.slot
  split <;> rfl

theorem readsNames_rest : Yields r.ReadsNames (Grammar.restPattern r) := by
  refine r.readsNames fun pattern => .after fun dialect => .optional fun _ => .after fun _ => ?_
  refine .after fun equals => ?_
  dsimp only
  split
  · exact .after fun _ => .after fun _ => .after fun _ => .pure fun _ => rfl
  · exact .pure fun _ => rfl

end Rules

/-- For every list of parameters the names that are gathered from the list are those of its patterns, one
after another and with their spans. They are the same whatever the decorators, computed keys and default
values are, so none of them is bound inside one of these. A parameter, and an element or a rest of a pattern,
has the names of the pattern that is read for it, whatever type is read after that. -/
theorem parameter_names_agree (params : List Pattern) :
    Params.names params = params.flatMap Pattern.names ∧
      (∀ others, Pattern.bareOfAll others = Pattern.bareOfAll params →
        Params.names others = Params.names params ∧
          others.flatMap Pattern.names = params.flatMap Pattern.names) ∧
      ∀ r, Parse.Yields (Rules.ReadsNames r) (Grammar.parameter r) ∧
        Parse.Yields r.ReadsNames (Grammar.patternElement r) ∧
        Parse.Yields r.ReadsNames (Grammar.restPattern r) := by
  have names (params : List Pattern) : Params.names params = Pattern.namesOfAll params := by
    rw [Params.names,Pattern.collectAll_eq,List.append_nil,List.reverse_reverse]
  simp only [names,← Pattern.namesOfAll_eq_flatMap,and_self,true_and]
  refine ⟨fun others same => ?_,fun r => ⟨r.readsNames_parameter,r.readsNames_element,r.readsNames_rest⟩⟩
  rw [← Pattern.namesOfAll_bare,same,Pattern.namesOfAll_bare]

end Resumable.Script
