import FormRules.Action.Builtin
import FormRules.Action.Registry
import FormRules.Evaluation.Builtin
import FormRules.Negation.Affix

/-!
# Configurations

A draft collects actions, opposites, evaluations and affix rules; `Draft.build` checks it and makes
the configuration that hosts share. Plain registrations must have new names, opposites must name
actions, and patterns must be well formed; the first fault in that order is the error.
-/

namespace FormRules

/-- A registration of an action; an override may take a name that is used already. -/
structure ActionDef (α : Type) where
  name : String
  action : α
  override : Bool := false
deriving Inhabited

/-- A registration of an evaluation. -/
structure EvaluationDef where
  pattern : String
  default : Bool
  predicate : Predicate
  label : Option String := none

/-- A configuration that is still open. -/
structure Draft (α : Type) where
  actions : List (ActionDef α) := []
  negatives : List (String × String) := []
  evaluations : List EvaluationDef := []
  affixes : AffixRules := {}
  classes : ClassNames := {}
  /-- What the patterns of evaluations are. -/
  regex : Regex := Pattern.regex

/-- A checked configuration. -/
structure Config (α : Type) where
  actions : Registry α := {}
  /-- Declared opposites in order. -/
  negatives : List (String × String) := []
  evaluations : EvaluationTable := {}
  affixes : AffixRules := {}
  classes : ClassNames := {}
  regex : Regex := Pattern.regex

namespace Draft

variable {α : Type}

/-- The draft with the built-in actions, evaluations and affix rules. -/
def withDefaults (builtin : BuiltinAction → α) : Draft α where
  actions := BuiltinAction.all.map fun (name, a) => { name, action := builtin a }
  evaluations := Evaluation.builtins.map fun (pattern, default, predicate) =>
    { pattern, default, predicate }
  affixes := .standard

/-- Registers an action under a new name. -/
def addAction (d : Draft α) (name : String) (action : α) : Draft α :=
  { d with actions := d.actions ++ [{ name, action }] }

/-- Registers an action, in the place of an earlier one with its name. -/
def overrideAction (d : Draft α) (name : String) (action : α) : Draft α :=
  { d with actions := d.actions ++ [{ name, action, override := true }] }

/-- Declares two actions each other's opposite. -/
def addNegative (d : Draft α) (action negative : String) : Draft α :=
  { d with negatives := d.negatives ++ [(action, negative)] }

/-- Registers an evaluation. -/
def addEvaluation (d : Draft α) (e : EvaluationDef) : Draft α :=
  { d with evaluations := d.evaluations ++ [e] }

/-! ## Checks -/

/-- The first plain registration of a name that is used already. -/
def duplicate? (seen : List String) : List (ActionDef α) → Option String
  | [] => none
  | d :: ds =>
    if seen.contains d.name && !d.override then some d.name else duplicate? (d.name :: seen) ds

/-- The first declared opposite with a side that is no action, and that side. -/
def undefined? (actions : Registry α) : List (String × String) → Option (String × String)
  | [] => none
  | (action, negative) :: rest =>
    match [action, negative].find? fun name => !actions.contains name with
    | some name => some (action, name)
    | none => undefined? actions rest

/-- The registered actions, the last of each name. -/
def registry (ds : List (ActionDef α)) : Registry α :=
  ds.foldl (fun r d => r.insert d.name d.action) {}

/-- The table of the evaluations, or the error of the first whose pattern is refused. -/
def table (t : EvaluationTable) (evaluations : List EvaluationDef)
    (regex : Regex := Pattern.regex) : Except ConfigError EvaluationTable :=
  match evaluations with
  | [] => .ok t
  | d :: ds =>
    match Evaluation.compile d.pattern d.default d.predicate d.label regex with
    | .ok e => table (t.insert e) ds regex
    | .error e => .error e

/-- Checks a draft. -/
def build (d : Draft α) : Except ConfigError (Config α) := do
  if let some name := duplicate? [] d.actions then throw (.duplicateAction name)
  let actions := registry d.actions
  if let some (action, name) := undefined? actions d.negatives then
    throw (.undefinedNegative action name)
  let evaluations ← table {} d.evaluations d.regex
  return { actions, negatives := d.negatives, evaluations, affixes := d.affixes,
           classes := d.classes, regex := d.regex }

end Draft

/-- What is reported of a configuration once it is checked. -/
def Config.compiled {α : Type} (c : Config α) : Diagnostic :=
  .configCompiled c.actions.size c.negatives.length c.evaluations.entries.length

end FormRules
