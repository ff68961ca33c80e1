import FormRules.Diagnostic
import FormRules.Evaluation.Test
import FormRules.Pattern.Regex
import FormRules.Roster
import FormRules.Text.Quoted

/-!
# The evaluation table

A condition written as a value is looked up in a table of evaluations: the first entry whose pattern
matches the whole text of the condition says how it is checked. A condition that no entry matches is
compared with the field's value by strict equality, which is the table's last, unnamed entry.
-/

namespace FormRules

/-- Decides a condition on a field with a value. The flags are those of the running script. -/
abbrev Predicate := Flags → Value → FieldState → Option Value → Bool

/-- An entry of the table. `default` is the result for an identifier that matches no field, and a
labelled entry reports each of its checks. -/
structure Evaluation where
  pattern : String
  /-- In which texts the pattern is found; `none` is for every condition. -/
  matcher : Option (String → Bool)
  default : Bool
  predicate : Predicate
  label : Option String := none

namespace Evaluation

/-- An entry whose pattern must match whole conditions; an error if that is no regular
expression. -/
def compile (pattern : String) (default : Bool) (predicate : Predicate) (label : Option String)
    (regex : Regex := Pattern.regex) : Except ConfigError Evaluation :=
  match regex (Regex.whole pattern) with
  | some found => .ok ⟨pattern, some found, default, predicate, label⟩
  | none => .error (.invalidPattern pattern)

/-- Whether the entry is for a condition with this text. -/
def covers (e : Evaluation) (condition : String) : Bool :=
  match e.matcher with
  | none => true
  | some found => found condition

/-- The entry in a diagnostic text. -/
def describe (e : Evaluation) : String :=
  "Evaluation \x7b pattern: " ++ Text.quoted e.pattern ++ ", default: " ++
    (if e.default then "true" else "false") ++ " \x7d"

/-- The last entry: strict equality with the value. -/
def strictEquality : Evaluation :=
  ⟨"", none, false, fun _ condition _ value => value.any condition.strictEq, none⟩

end Evaluation

/-- Evaluations in the order in which their patterns came first. -/
structure EvaluationTable where
  entries : List Evaluation := []

namespace EvaluationTable

/-- The table with one more entry, in the place of an earlier one with its pattern. -/
def insert (t : EvaluationTable) (e : Evaluation) : EvaluationTable :=
  ⟨Roster.put Evaluation.pattern e t.entries⟩

/-- The entry for a condition. -/
def lookup (t : EvaluationTable) (condition : Value) : Evaluation :=
  (t.entries.find? (·.covers condition.asText)).getD .strictEquality

/-- The patterns in order. -/
def patterns (t : EvaluationTable) : List String := t.entries.map Evaluation.pattern

end EvaluationTable

end FormRules
