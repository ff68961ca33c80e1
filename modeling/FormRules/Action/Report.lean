/-!
# Reports

Applying a list of actions never fails as a whole. The report says of every token whether its action
ran, was skipped for want of an opposite, or is unknown.
-/

namespace FormRules

/-- The outcome of applying an action list: names that ran, tokens that were skipped, and names that
no action has, each in order. -/
structure Report where
  applied : List String := []
  skipped : List String := []
  unknown : List String := []
deriving DecidableEq, Repr, Inhabited

namespace Report

/-- The report with one more action that ran. -/
def addApplied (r : Report) (name : String) : Report := { r with applied := r.applied ++ [name] }

/-- The report with one more token that was skipped. -/
def addSkipped (r : Report) (name : String) : Report := { r with skipped := r.skipped ++ [name] }

/-- The report with one more unknown name. -/
def addUnknown (r : Report) (name : String) : Report := { r with unknown := r.unknown ++ [name] }

/-- Two reports one after the other. -/
def append (r s : Report) : Report :=
  ⟨r.applied ++ s.applied, r.skipped ++ s.skipped, r.unknown ++ s.unknown⟩

/-- Whether every action was known. -/
def isClean (r : Report) : Bool := r.unknown.isEmpty

/-- What an unknown name is reported as. -/
def unknownMessage (name : String) : String := "unknown action '" ++ name ++ "'"

/-- The report as text; empty lists are left out, except the first. -/
def text (r : Report) : String :=
  "applied: [" ++ ", ".intercalate r.applied ++ "]" ++
    (if r.skipped = [] then "" else ", skipped: [" ++ ", ".intercalate r.skipped ++ "]") ++
    if r.unknown = [] then ""
    else ", errors: [" ++ "; ".intercalate (r.unknown.map unknownMessage) ++ "]"

end Report

end FormRules
