import FormRules.Action.Builtin
import FormRules.Json.Reader
import FormRules.Negation.Affix

/-!
# Stored data

Values, field identifiers, affix rules and class names are stored as JSON. A record is an object
with its fields by name, or an array of its fields in order; other members of an object are not
read, and each field must be there once. What is written reads back: `ofJson?` undoes `toJson`.
-/

namespace FormRules

namespace Json

/-- A text. -/
def text (s : String) : Json := .string (some s)

/-- Reads a text. -/
def text? : Json → Option String
  | .string s => s
  | _ => none

/-- Reads an array, each element by `read`. -/
def list? {α : Type} (read : Json → Option α) : Json → Option (List α)
  | .array xs => xs.mapM read
  | _ => none

/-- The only member under a key. -/
def member? (key : String) (ms : List (Option String × Json)) : Option Json :=
  match ms.filter fun m => m.1 == some key with
  | [m] => some m.2
  | _ => none

/-- A record of two fields. -/
def pair (a b : String) (x y : Json) : Json := .object [(some a, x), (some b, y)]

/-- Reads a record of two fields. -/
def pair? (a b : String) : Json → Option (Json × Json)
  | .array [x, y] => some (x, y)
  | .object ms => do
    if ms.any fun m => m.1.isNone then failure
    let x ← member? a ms
    let y ← member? b ms
    return (x, y)
  | _ => none

end Json

open Json

/-! ## Values -/

/-- The value as stored. A double that is no number is null, which is no value. -/
def Value.toJson : Value → Json
  | int n => .number (some (.whole n.toInt))
  | float x => if x.isFinite then .number (some (.fraction x)) else .null
  | bool b => .bool b
  | text s => Json.text s

/-- Reads a value. A whole number of more than 64 bits with sign is a double. -/
def Value.ofJson? : Json → Option Value
  | .number (some (.whole n)) =>
    if Int64.minValue.toInt ≤ n ∧ n ≤ Int64.maxValue.toInt then some (int (Int64.ofInt n))
    else some (float (UInt64.ofNat n.toNat).toFloat)
  | .number (some (.fraction x)) => some (float x)
  | .bool b => some (bool b)
  | .string (some s) => some (text s)
  | _ => none

/-! ## Field identifiers -/

/-- The selector as stored. -/
def Selector.toJson (s : Selector) : Json :=
  pair "name" "values" (Json.text s.name) (.array (s.values.map Json.text))

/-- Reads a selector. -/
def Selector.ofJson? (j : Json) : Option Selector := do
  let (name, values) ← pair? "name" "values" j
  return ⟨← text? name, ← list? text? values⟩

/-- The identifier as stored. -/
def Spec.toJson : Spec → Json
  | all => Json.text "All"
  | fields ss => .object [(some "Fields", .array (ss.map Selector.toJson))]

/-- Reads an identifier. -/
def Spec.ofJson? : Json → Option Spec
  | .string (some "All") => some all
  | .object [(some "All", .null)] => some all
  | .object [(some "Fields", ss)] => (list? Selector.ofJson? ss).map fields
  | _ => none

/-! ## Configuration -/

/-- The rule as stored. -/
def AffixRule.toJson (r : AffixRule) : Json :=
  pair "affix" "negative" (Json.text r.affix) (Json.text r.negative)

/-- Reads a rule. -/
def AffixRule.ofJson? (j : Json) : Option AffixRule := do
  let (affix, negative) ← pair? "affix" "negative" j
  return ⟨← text? affix, ← text? negative⟩

/-- The rules as stored. -/
def AffixRules.toJson (r : AffixRules) : Json :=
  pair "prefixes" "postfixes" (.array (r.prefixes.map AffixRule.toJson))
    (.array (r.postfixes.map AffixRule.toJson))

/-- Reads rules. -/
def AffixRules.ofJson? (j : Json) : Option AffixRules := do
  let (prefixes, postfixes) ← pair? "prefixes" "postfixes" j
  return ⟨← list? AffixRule.ofJson? prefixes, ← list? AffixRule.ofJson? postfixes⟩

/-- The class names as stored. -/
def ClassNames.toJson (c : ClassNames) : Json :=
  pair "required_indicator" "collapse_show" (Json.text c.requiredIndicator)
    (Json.text c.collapseShow)

/-- Reads class names. -/
def ClassNames.ofJson? (j : Json) : Option ClassNames := do
  let (required, collapse) ← pair? "required_indicator" "collapse_show" j
  return ⟨← text? required, ← text? collapse⟩

end FormRules
