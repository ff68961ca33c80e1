import FormRules.Action.Token
import FormRules.Action.Builtin
import FormRules.Evaluation.Test

/-!
# Scripts

Rules, actions and listeners re-enter the engine: an action that a rule runs may write fields, build
rules or trigger others. What they do is therefore a script, a list of steps that is data, and the
engine is a function on data.

A step asks something of a form's host, of a rule under construction, or of a query by itself. Rules
are built by chains of operations, which alternate between two facets: one takes the next
condition, the other takes what joins conditions and the actions to run.
-/

namespace FormRules

/-- A condition that is evaluated by itself: a named query, or a named flag. An observable flag
keeps the listeners it is given, and a logged one reports each evaluation. -/
inductive NodeSpec
  | query (name : String)
  | flag (name : String) (observable logged : Bool)
deriving DecidableEq, Repr, Inhabited

/-- What a rule asks of a field. -/
inductive ConditionSpec
  /-- A value that the evaluation table knows how to check. -/
  | value (v : Value)
  | test (t : Test) (label : Option String)
  | node (n : NodeSpec)
deriving Inhabited

/-- When an attached action list runs, and whether its actions or their opposites. -/
inductive Polarity
  /-- The actions while the rule holds, their opposites while it fails. -/
  | holding
  /-- The actions while the rule fails, their opposites while it holds. -/
  | failing
  /-- The actions when the rule comes to hold. -/
  | onlyHolding
  /-- The actions when the rule comes to fail. -/
  | onlyFailing
  /-- As `holding`, until the rule has held once. -/
  | once
deriving DecidableEq, Repr, Inhabited

/-- Whether the opposites are meant, if anything runs in this state. -/
def Polarity.negates? : Polarity → Bool → Option Bool
  | holding, state => some !state
  | failing, state => some state
  | onlyHolding, state => if state then some false else none
  | onlyFailing, state => if state then none else some false
  | once, state => some !state

/-- An action written as a script: it may switch an effect on its target, and then runs its
steps. -/
structure ScriptedAction (σ : Type) where
  name : String
  effect : Option (Effect × Switch) := none
  run : List σ := []
deriving Inhabited

/-- What a registered action does. -/
inductive Behaviour (σ : Type)
  | builtin (a : BuiltinAction)
  | scripted (a : ScriptedAction σ)
deriving Inhabited

/-- An operation of a chain that builds a rule. -/
inductive ChainOp (σ : Type)
  /-- Keeps the rule as it is now under a name. -/
  | save (name : String)
  | trigger
  | pause
  | resume
  /-- Adds a condition on a field; without a field, on the whole form. -/
  | when (c : ConditionSpec) (field : Option String)
  /-- Listens to a field without a condition on it. -/
  | on (field : String)
  | openBracket
  | evaluate
  | and
  | or
  | closeBracket
  | call (label : String) (run : List σ)
  | attach (p : Polarity) (actions : List (Token σ)) (args : Args)
  /-- Chooses the branch that direct actions attach to. -/
  | direct (failing : Bool)
  /-- Attaches to the chosen branch. -/
  | action (actions : List (Token σ)) (args : Args)
deriving Inhabited

/-- An operation on a query. -/
inductive QueryOp (σ : Type)
  | new
  | childOf (parent : String)
  | drop
  | condition (node : NodeSpec)
  | or
  | and
  | trigger
  | pause
  | resume
  | negate (failing : Bool)
  | callback (label : String) (run : List σ)
  | evaluate
  | same (other : String)
  | parent (other : String)
  | listen (node : NodeSpec) (label : String)
  | inspect
deriving Inhabited

/-- A step of a script. -/
inductive Step
  | rule (chain : List (ChainOp Step)) (name source : Option String)
  | write (field : String) (v : Value) (automatic : Bool)
  | effect (field : String) (e : Effect) (s : Switch) (skip : Bool)
  | listen (field label : String) (run : List Step)
  | dispatch (actions : List (Token Step)) (args : Args) (negate skip : Bool)
  | eval (field : String) (condition : Value)
  | value (field : String)
  | fields (field : String)
  | exists (field : String)
  | state (field : String)
  | notify (handles : List Handle) (automatic : Bool)
  | triggerAll
  | hasChanged
  | negative (name : String)
  | searches
  | actionNames
  | actionExists (name : String)
  | registerAction (action : ScriptedAction Step)
  | registerNegative (action negative : String)
  | registerEvaluation (pattern : String) (default : Bool) (t : Test) (label : Option String)
  | info
  | setFlag (name : String) (value : Bool)
  | dropRule (name : String)
  | dropHost
  | query (name : String) (op : QueryOp Step)

instance : Inhabited Step := ⟨.triggerAll⟩

/-- The name of a step in the log. -/
def Step.name : Step → String
  | rule .. => "rule"
  | write _ _ automatic => if automatic then "set_value" else "input"
  | effect .. => "effect"
  | listen .. => "on"
  | dispatch .. => "actions"
  | eval .. => "eval"
  | value _ => "value"
  | fields _ => "fields"
  | .exists _ => "exists"
  | state _ => "state"
  | notify .. => "notify"
  | triggerAll => "trigger_all"
  | hasChanged => "has_changed"
  | negative _ => "negative"
  | searches => "searches"
  | actionNames => "action_names"
  | actionExists _ => "action_exists"
  | registerAction _ => "register_action"
  | registerNegative .. => "register_negative"
  | registerEvaluation .. => "register_evaluation"
  | info => "info"
  | setFlag .. => "flag"
  | dropRule _ => "drop_rule"
  | dropHost => "drop_host"
  | query .. => "q"

/-- An action of a configuration, whose script is a list of steps. -/
abbrev Action := Behaviour Step

end FormRules
