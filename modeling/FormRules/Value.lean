import FormRules.Decimal.Layout

/-!
# Values

The scalars that flow through conditions, field reads and action arguments. A text field reads as
its text, an unchecked box or radio group as the number zero, and a condition may be any value.

Two notions of agreement matter. `Value.isTruthy` is loose: the empty text, zero, not-a-number and
`false` are false. `Value.strictEq` is strict: it compares numbers by value and everything else
within one kind only.
-/

namespace FormRules

/-- A scalar. -/
inductive Value
  | int (n : Int64)
  | float (x : Float)
  | bool (b : Bool)
  | text (s : String)
deriving Inhabited

namespace Value

/-- Whether a value counts as true. -/
def isTruthy : Value → Bool
  | int n => n != 0
  | float x => x != 0 && !x.isNaN
  | bool b => b
  | text s => s != ""

/-- Equality of values: numbers by what they stand for, other kinds only with their own. -/
def strictEq : Value → Value → Bool
  | int a, int b => a == b
  | float a, float b => a == b
  | int a, float b => a.toFloat == b
  | float a, int b => a == b.toFloat
  | bool a, bool b => a == b
  | text a, text b => a == b
  | _, _ => false

/-- The text that patterns and field names are matched with. -/
def asText : Value → String
  | int n => toString n.toInt
  | float x => Decimal.Layout.plain.text x
  | bool b => if b then "true" else "false"
  | text s => s

/-- The text inside a text value. -/
def text? : Value → Option String
  | text s => some s
  | _ => none

@[simp] theorem asText_text (s : String) : (text s).asText = s := rfl

@[simp] theorem strictEq_text (a b : String) : (text a).strictEq (text b) = (a == b) := rfl

end Value

/-- Whether an optional value counts as true; a missing one does not. -/
def isTruthy (v : Option Value) : Bool := v.any Value.isTruthy

end FormRules
