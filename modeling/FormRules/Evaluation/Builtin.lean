import FormRules.Evaluation.Table
import FormRules.Text.Case

/-!
# Built-in evaluations

The conditions that every form understands, in pairs of a condition and its opposite. The default of
an entry is what it would say of a field that is empty, optional and editable.
-/

namespace FormRules.Evaluation

/-- What follows `start` in the condition's text; nothing if it starts otherwise. -/
def argument (start : String) (condition : Value) : List Char :=
  (Text.after? start.toList condition.asText.toList).getD []

/-- Whether the value is a text, and the one that follows `start` in the condition. An unchecked
field, which reads as zero, has no text. -/
def equalsArgument (start : String) (condition : Value) (value : Option Value) : Bool :=
  match value with
  | some (.text s) => s.toList == argument start condition
  | _ => false

/-- What follows the last dot of a text value, in lower case; nothing without a dot. -/
def extension (value : Option Value) : List Char :=
  match value with
  | some (.text s) =>
    if '.' ∈ s.toList then Text.lower (s.toList.reverse.takeWhile (· != '.')).reverse else []
  | _ => []

/-- Whether the value has an extension, and one of those listed behind `start`. -/
def hasListedExtension (start : String) (condition : Value) (value : Option Value) : Bool :=
  let e := extension value
  e != [] && (Text.splitOn ',' (Text.lower (argument start condition))).contains e

/-- The built-in entries: pattern, default and predicate. -/
def builtins : List (String × Bool × Predicate) := [
  ("required", false, fun _ _ f _ => f.required),
  ("not-required", true, fun _ _ f _ => !f.required),
  ("readonly", false, fun _ _ f _ => f.readonly),
  ("not-readonly", true, fun _ _ f _ => !f.readonly),
  ("empty", true, fun _ _ _ v => !isTruthy v),
  ("false", true, fun _ _ _ v => !isTruthy v),
  ("not-empty", false, fun _ _ _ v => isTruthy v),
  ("true", false, fun _ _ _ v => isTruthy v),
  ("valid", false, fun _ _ f _ => f.valid),
  ("not-valid", true, fun _ _ f _ => !f.valid),
  ("value:.+", false, fun _ c _ v => equalsArgument "value:" c v),
  ("not:.+", true, fun _ c _ v => !equalsArgument "not:" c v),
  ("file-extension:.+", false, fun _ c _ v => hasListedExtension "file-extension:" c v),
  ("not-file-extension:.+", true, fun _ c _ v => !hasListedExtension "not-file-extension:" c v)]

end FormRules.Evaluation
