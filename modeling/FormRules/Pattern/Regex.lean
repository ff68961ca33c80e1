import FormRules.Pattern.Parser

/-!
# Regular expressions as a parameter

Patterns of conditions are regular expressions, and what a regular expression is comes from outside:
a `Regex` takes a text, refuses it if it is no regular expression, and else says in which texts it is
found. A draft and a configuration have one.

`Pattern.regex` is the one that comes with the library. It is made of `Pattern.parse` and
`Pattern.isFoundIn`, for a part of the usual syntax: it has no classes by Unicode property and no
boundaries in braces, reads the flag `u` without effect, and bounds neither how deep groups nest nor
how often a name is given to one. No other definition depends on which `Regex` there is.
-/

namespace FormRules

/-- What regular expressions are: nothing for a text that is not one, and for one that is, whether it
is found somewhere in a text. -/
abbrev Regex := String → Option (String → Bool)

/-- The regular expression for whole texts that is made of a pattern. The pattern is put between the
anchors as text, so one that closes the group around it is anchored at one side only. -/
def Regex.whole (pattern : String) : String := "^(?:" ++ pattern ++ ")$"

/-- The regular expressions that `parse` reads. -/
def Pattern.regex : Regex := fun source => (parse source).toOption.map isFoundIn

end FormRules
