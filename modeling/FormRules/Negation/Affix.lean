import FormRules.Roster
import FormRules.Text.Case
import FormRules.Text.Cut

/-!
# Affix rules

The opposite of an action is often visible in its name: `show` and `hide`, `addClass` and
`removeClass`, `fadeIn` and `fadeOut`. A rule pairs two affixes; `AffixRules.candidates` lists the
names that the rules offer as opposites of a name, in the order in which they are tried.
-/

namespace FormRules

open Text

/-- A pair of affixes of opposite meaning. -/
structure AffixRule where
  affix : String
  negative : String
deriving DecidableEq, Repr, Inhabited

/-- The rules for the start and for the end of names. -/
structure AffixRules where
  prefixes : List AffixRule := []
  postfixes : List AffixRule := []
deriving DecidableEq, Repr, Inhabited

namespace AffixRules

/-- Adds a rule for the start of names, in the place of an earlier one for its affix. -/
def putPrefix (rules : AffixRules) (affix negative : String) : AffixRules :=
  { rules with prefixes := Roster.put AffixRule.affix ⟨affix, negative⟩ rules.prefixes }

/-- Adds a rule for the end of names, in the place of an earlier one for its affix. -/
def putPostfix (rules : AffixRules) (affix negative : String) : AffixRules :=
  { rules with postfixes := Roster.put AffixRule.affix ⟨affix, negative⟩ rules.postfixes }

/-- The usual rules. -/
def standard : AffixRules where
  prefixes := [⟨"add", "remove"⟩, ⟨"show", "hide"⟩, ⟨"en", "dis"⟩, ⟨"un", ""⟩, ⟨"dis", ""⟩,
    ⟨"re", ""⟩]
  postfixes := [⟨"in", "out"⟩, ⟨"up", "down"⟩]

end AffixRules

/-- The name in both cases of its first letter, behind `stem`. -/
def bothCases (stem tail : List Char) : List (List Char) → List (List Char) :=
  fun more => (stem ++ lowerFirst tail) :: (stem ++ upperFirst tail) :: more

/-- The opposites by a rule for the start of names: the other affix with the rest of the name. -/
def prefixCandidates (affix opposite name : List Char) : List (List Char) :=
  match after? affix name with
  | some rest => bothCases opposite rest []
  | none => []

/-- The opposites by a rule for the end of names: what comes before the affix, with the other one.
The first letter of the affix may be in either case, and an empty affix ends no name. -/
def postfixCandidates (affix opposite name : List Char) : List (List Char) :=
  if affix = [] then []
  else match cutBytes? name (byteSize affix) with
    | some (stem, tail) =>
      if lowerFirst tail = lowerFirst affix then bothCases stem opposite [] else []
    | none => []

namespace AffixRule

/-- The opposites of a name by one rule, read from affix to negative and then the other way. -/
def candidates (offer : List Char → List Char → List Char → List (List Char)) (rule : AffixRule)
    (name : List Char) : List (List Char) :=
  let affix := rule.affix.toList
  let negative := rule.negative.toList
  offer affix negative name ++ offer negative affix name

end AffixRule

/-- The opposites that the rules offer for a name. -/
def AffixRules.candidates (rules : AffixRules) (name : String) : List String :=
  let cs := name.toList
  (rules.prefixes.flatMap (·.candidates prefixCandidates cs) ++
    rules.postfixes.flatMap (·.candidates postfixCandidates cs)).map String.ofList

end FormRules
