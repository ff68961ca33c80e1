import FormRules.Form.Basic
import FormRules.Text.Cut

/-!
# Tests

The predicates that a script can write down. A test looks at a value, at a flag, or, as part of an
evaluation, at the condition and the field too.
-/

namespace FormRules

/-- The named flags, as they stand. -/
abbrev Flags := String → Bool

/-- A predicate of a script. -/
inductive Test
  | truthy
  /-- The value is strictly equal to `v`. -/
  | equals (v : Value)
  /-- The value's text is `s`. -/
  | hasText (s : String)
  | minLength (n : Nat)
  /-- There is no value. -/
  | missing
  | flag (name : String)
  | const (b : Bool)
  /-- The value is strictly equal to the condition. -/
  | equalsCondition
  /-- The value's text starts with what follows the first colon of the condition. -/
  | startsWithArgument
  | hasClass (name : String)
deriving Inhabited

/-- What follows the first colon of a text; nothing if it has none. -/
def textAfterColon (cs : List Char) : List Char := (cs.dropWhile (· != ':')).drop 1

namespace Test

/-- The test as part of an evaluation. -/
def check (t : Test) (flags : Flags) (condition : Value) (field : FieldState)
    (value : Option Value) : Bool :=
  match t with
  | truthy => isTruthy value
  | equals v => value.any (·.strictEq v)
  | hasText s => value.any (·.asText == s)
  | minLength n => value.any fun v => n ≤ v.asText.toList.length
  | missing => value.isNone
  | flag name => flags name
  | const b => b
  | equalsCondition => value.any condition.strictEq
  | startsWithArgument =>
    value.any fun v =>
      (Text.after? (textAfterColon condition.asText.toList) v.asText.toList).isSome
  | hasClass name => field.hasClass name

/-- The test on a value alone: what looks at a condition or a field is false. -/
def holds (t : Test) (flags : Flags) (value : Option Value) : Bool :=
  match t with
  | equalsCondition | startsWithArgument | hasClass _ => false
  | t => t.check flags (.text "") { id := "", kind := .text, value := "" } value

end Test

end FormRules
