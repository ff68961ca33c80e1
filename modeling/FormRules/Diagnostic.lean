/-!
# Diagnostics and errors

What the engine reports about its own work: one constructor per kind of event, with what it tells.
A diagnostic has a level, a message and named details. An error says why a configuration or its use
is refused.
-/

namespace FormRules

/-- How much a diagnostic matters. -/
inductive Level
  | error
  | warn
  | debug
  | trace
deriving DecidableEq, Repr, Inhabited

/-- The name of a level. -/
def Level.name : Level → String
  | error => "ERROR"
  | warn => "WARN"
  | debug => "DEBUG"
  | trace => "TRACE"

/-- The value of a detail. -/
inductive Detail
  | text (s : String)
  | flag (b : Bool)
  | count (n : Nat)
deriving DecidableEq, Repr, Inhabited

/-- An event in the engine's own work. -/
inductive Diagnostic
  | malformedIdentifier (message : String)
  | noFieldsFound (form selector : String)
  | negativeInferred (action negative : String)
  | noNegativeFound (action : String)
  | customHasNoNegative
  | applyingAction (action : String) (skip : Bool)
  | unknownAction (action form : String)
  | noClassName (field : String)
  | triggerIgnored
  | stateChanged (state skip : Bool)
  | triggeringAll (form : String) (queries : Nat)
  | fieldChanged (field : String) (automatic : Bool) (listeners : Nat)
  | configCompiled (actions negatives evaluations : Nat)
  | unknownForm (form : String)
  | formReady (form : String)
  | allReady (forms : Nat)
deriving DecidableEq, Repr, Inhabited

namespace Diagnostic

/-- How much it matters. -/
def level : Diagnostic → Level
  | unknownAction .. | unknownForm _ => .error
  | malformedIdentifier _ | noFieldsFound .. => .warn
  | negativeInferred .. | applyingAction .. | triggerIgnored | fieldChanged .. => .trace
  | _ => .debug

/-- What happened. -/
def message : Diagnostic → String
  | malformedIdentifier _ => "ignoring malformed field identifier"
  | noFieldsFound .. => "no fields found"
  | negativeInferred .. => "negative inferred"
  | noNegativeFound _ => "no negative found"
  | customHasNoNegative => "custom actions have no negative"
  | applyingAction .. => "applying action"
  | unknownAction .. => "unknown action"
  | noClassName _ => "class action without a class name"
  | triggerIgnored => "trigger ignored while paused"
  | stateChanged .. => "query state changed"
  | triggeringAll .. => "triggering all queries"
  | fieldChanged .. => "field changed"
  | configCompiled .. => "engine configuration compiled"
  | unknownForm _ => "script for unknown form"
  | formReady _ => "form ready"
  | allReady _ => "all forms ready"

/-- To what it happened, by name. -/
def details : Diagnostic → List (String × Detail)
  | malformedIdentifier message => [("err", .text message)]
  | noFieldsFound form selector => [("form", .text form), ("field", .text selector)]
  | negativeInferred action negative => [("action", .text action), ("negative", .text negative)]
  | noNegativeFound action => [("action", .text action)]
  | customHasNoNegative => []
  | applyingAction action skip => [("action", .text action), ("skip_transition", .flag skip)]
  | unknownAction action form => [("action", .text action), ("form", .text form)]
  | noClassName field => [("field", .text field)]
  | triggerIgnored => []
  | stateChanged state skip => [("state", .flag state), ("skip_transition", .flag skip)]
  | triggeringAll form queries => [("form", .text form), ("queries", .count queries)]
  | fieldChanged field automatic listeners =>
    [("field", .text field), ("automatic", .flag automatic), ("listeners", .count listeners)]
  | configCompiled actions negatives evaluations =>
    [("actions", .count actions), ("negatives", .count negatives),
      ("evaluations", .count evaluations)]
  | unknownForm form => [("form", .text form)]
  | formReady form => [("form", .text form)]
  | allReady forms => [("forms", .count forms)]

end Diagnostic

/-! ## Errors -/

/-- What is wrong with a configuration, or with the forms it is used for. -/
inductive ConfigError
  | invalidPattern (pattern : String)
  | duplicateAction (name : String)
  | undefinedNegative (action negative : String)
  | unknownForm (id : String)
deriving DecidableEq, Repr, Inhabited

/-- The message of an error. -/
def ConfigError.message : ConfigError → String
  | invalidPattern pattern => "invalid evaluation pattern '" ++ pattern ++ "'"
  | duplicateAction name => "duplicate action name '" ++ name ++ "'"
  | undefinedNegative action negative =>
    "negative '" ++ negative ++ "' of action '" ++ action ++ "' is not a registered action"
  | unknownForm id => "no form with id '" ++ id ++ "' to run its script against"

end FormRules
