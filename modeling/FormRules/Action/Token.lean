import FormRules.Text.Blank
import FormRules.Text.Cut
import FormRules.Value

/-!
# Action lists and arguments

A rule applies a list of tokens, each an action's name or a script of its own, to positional
arguments, of which the first names the target fields.
-/

namespace FormRules

/-- An element of an action list. Scripts are lists of steps of type `σ`. -/
inductive Token (σ : Type)
  | named (name : String)
  | custom (label : String) (run : List σ)
deriving Inhabited

namespace Token

variable {σ : Type}

/-- The names in a text between commas, without the blanks around them; empty ones are left out. -/
def namesIn (text : String) : List String :=
  (((Text.splitOn ',' text.toList).map Text.trim).filter (· != [])).map String.ofList

/-- The tokens that a text names. -/
def ofText (text : String) : List (Token σ) := (namesIn text).map .named

end Token

/-- What a report calls a token without a name. -/
def customLabel : String := "<custom>"

/-- The arguments of an action. -/
abbrev Args := List Value

namespace Args

/-- The text of the argument at `i`; empty if there is none. -/
def text (args : Args) (i : Nat) : String := (args[i]?.map Value.asText).getD ""

/-- The target fields: the first argument. -/
def field (args : Args) : String := args.text 0

end Args

end FormRules
