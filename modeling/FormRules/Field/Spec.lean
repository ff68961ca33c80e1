/-!
# Field identifiers

A rule names fields by an identifier: a list of selectors, each a field name with values that pick
members of a group, or the blank identifier, which stands for every field. `Spec.render` writes an
identifier back as text.
-/

namespace FormRules

/-- The name that stands for the whole form. -/
def formAlias : String := "<form>"

/-- A field name, with the values of the members it picks; no values pick all. -/
structure Selector where
  name : String
  values : List String
deriving DecidableEq, Repr, Inhabited

/-- What an identifier stands for. -/
inductive Spec
  /-- Every field, and no subscription to changes. -/
  | all
  /-- The fields that some selector picks. -/
  | fields (selectors : List Selector)
deriving DecidableEq, Repr, Inhabited

namespace Selector

/-- Whether the selector names the whole form. -/
def isForm (s : Selector) : Bool := s.name == formAlias

/-- The selector as characters: name and values between colons. -/
def chars (s : Selector) : List Char := s.name.toList ++ s.values.flatMap fun v => ':' :: v.toList

/-- The selector as text. -/
def render (s : Selector) : String := String.ofList s.chars

/-- The selector without values: it picks the whole group. -/
def group (s : Selector) : Selector := ⟨s.name, []⟩

end Selector

namespace Spec

/-- The whole form, by its alias. -/
def form : Spec := .fields [⟨formAlias, []⟩]

/-- The selectors of an identifier; the blank one has none. -/
def selectors : Spec → List Selector
  | all => []
  | fields ss => ss

/-- Whether this is the blank identifier. -/
def isAll : Spec → Bool
  | all => true
  | fields _ => false

/-- The identifier whose changes a condition on this one listens to: the same groups, without
values, since a change of any member can move the group's value. -/
def trigger : Spec → Spec
  | all => all
  | fields ss => fields (ss.map Selector.group)

/-- The identifier as characters: selectors between commas. -/
def chars : Spec → List Char
  | all => []
  | fields ss => List.intercalate [','] (ss.map Selector.chars)

/-- The identifier as text. -/
def render (s : Spec) : String := String.ofList s.chars

end Spec

end FormRules
