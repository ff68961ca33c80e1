import FormRules.Action.Report
import FormRules.Config
import FormRules.Script.Basic

/-!
# Answers and events

Every step has an answer, and everything that rules, actions and listeners see is an event of one
log. A computation that only reads the engine gives its value together with the events on the way:
`Traced`.
-/

namespace FormRules

/-! ## Answers -/

/-- A query in numbers. -/
structure QuerySummary where
  last : Option Bool
  paused : Bool
  isRoot : Bool
  clauses : Nat
  callbacks : Nat
  negate : Bool
  /-- The query's own state, which only a root uses: created as a root, last state, paused. -/
  own : Bool × Option Bool × Bool
deriving DecidableEq, Repr, Inhabited

/-- The query in a diagnostic text. -/
def QuerySummary.describe (q : QuerySummary) : String :=
  let truth (b : Bool) := if b then "true" else "false"
  let (created, last, paused) := q.own
  let last := match last with
    | none => "None"
    | some b => "Some(" ++ truth b ++ ")"
  "Query \x7b clauses: " ++ toString q.clauses ++ ", root: " ++ truth created ++ ", last_state: " ++
    last ++ ", paused: " ++ truth paused ++ " \x7d"

/-- The facets of a rule under construction. -/
inductive FacetKind
  /-- Takes the next condition. -/
  | condition
  /-- Takes what joins conditions, and actions. -/
  | junction
deriving DecidableEq, Repr, Inhabited

/-- A rule in numbers. -/
structure FacetSummary where
  kind : FacetKind
  isRoot : Bool
  last : Option Bool
  clauses : Nat
  callbacks : Nat
deriving DecidableEq, Repr, Inhabited

/-- A host in numbers. -/
structure HostSummary where
  id : String
  queries : Nat
  subscriptions : Nat
  changed : Bool
  actions : Nat
  configActions : Nat
  configPatterns : Nat
deriving DecidableEq, Repr, Inhabited

/-- The host in a diagnostic text. -/
def HostSummary.describe (h : HostSummary) : String :=
  "RuleHost \x7b form: " ++ Text.quoted h.id ++ ", queries: " ++ toString h.queries ++
    ", subscriptions: " ++ toString h.subscriptions ++ " \x7d"

/-- The answer of a step. -/
inductive Answer
  | nothing
  | truth (b : Bool)
  | count (n : Nat)
  | text? (s : Option String)
  | value? (v : Option Value)
  | handles (hs : List Handle)
  | names (ns : List String)
  | fields (fs : List FieldState)
  | report (r : Report)
  | rule (f : FacetSummary)
  | query (q : QuerySummary)
  | host (h : HostSummary)
  /-- Whether two queries are one, and whether their roots are. -/
  | same (queries roots : Bool)
  /-- Whether the parent is the query asked about, if there is a parent. -/
  | parent? (is : Option Bool)
  | invalid (e : ConfigError)
  /-- The step needs a host, and the session has none. -/
  | noHost
  /-- The step did not come to an end within the budget. -/
  | unsettled
deriving Inhabited

/-! ## Events -/

/-- An entry of the log. -/
inductive Event
  /-- A scripted action ran. -/
  | action (name : String) (args : Args) (skip : Bool)
  /-- A token without a name ran. -/
  | custom (label : String) (skip : Bool)
  /-- A callback of a query ran. -/
  | call (label : String) (state skip : Bool)
  /-- A listener heard of a change. -/
  | change (label field : String) (v : Option Value) (automatic : Bool)
  /-- A test decided a condition. -/
  | test (label field : String) (v : Option Value) (result : Bool)
  /-- An evaluation decided a condition. -/
  | check (label : String) (condition : Value) (field text : String) (v : Option Value)
      (result : Bool)
  /-- A flag was evaluated. -/
  | flag (name : String) (value : Bool)
  /-- A chain asked for the result. -/
  | evaluated (result : Bool)
  /-- A listener heard that a flag was set. -/
  | changed (label : String)
  /-- An effect was applied to a watched form. -/
  | applied (hs : List Handle) (e : Effect) (s : Switch) (skip : Bool) (changed : List Handle)
  /-- A value was written to a watched form. -/
  | written (hs : List Handle) (v : Value) (changed : List Handle)
  /-- A step within a script has ended. -/
  | ran (step : String) (a : Answer)
  | formReady (label form : String)
  | allReady (label : String)
  /-- A form's script starts. -/
  | script (label form : String)
  | diagnostic (d : Diagnostic)
deriving Inhabited

/-- Whether the event is about the engine's own work. -/
def Event.isDiagnostic : Event → Bool
  | diagnostic _ => true
  | _ => false

/-! ## Traced computations -/

/-- A value, with the events on the way to it. -/
structure Traced (α : Type) where
  value : α
  events : List Event := []

namespace Traced

/-- Does one computation after the other, and keeps the events of both. -/
def andThen {α β : Type} (x : Traced α) (f : α → Traced β) : Traced β :=
  let y := f x.value
  ⟨y.value, x.events ++ y.events⟩

instance : Monad Traced where
  pure a := ⟨a, []⟩
  bind := andThen

instance : LawfulMonad Traced := LawfulMonad.mk' Traced
  (fun _ => by simp [Functor.map, andThen])
  (fun _ _ => by simp [bind, andThen, pure])
  (fun _ _ _ => by simp [bind, andThen])

/-- Reports an event. -/
def emit (event : Event) : Traced Unit := ⟨(), [event]⟩

/-- Reports a diagnostic. -/
def note (d : Diagnostic) : Traced Unit := emit (.diagnostic d)

/-- Reports an event under the label that a predicate has, if it has one. -/
def emitLabelled (label : Option String) (event : String → Event) : Traced Unit :=
  match label with
  | some label => emit (event label)
  | none => pure ()

@[simp] theorem value_pure {α : Type} (a : α) : (pure a : Traced α).value = a := rfl

@[simp] theorem value_bind {α β : Type} (x : Traced α) (f : α → Traced β) :
    (x >>= f).value = (f x.value).value := rfl

@[simp] theorem value_map {α β : Type} (f : α → β) (x : Traced α) :
    (f <$> x).value = f x.value := rfl

@[simp] theorem events_map {α β : Type} (f : α → β) (x : Traced α) :
    (f <$> x).events = x.events := by
  show x.events ++ [] = x.events
  simp

@[simp] theorem events_pure {α : Type} (a : α) : (pure a : Traced α).events = [] := rfl

@[simp] theorem events_bind {α β : Type} (x : Traced α) (f : α → Traced β) :
    (x >>= f).events = x.events ++ (f x.value).events := rfl

end Traced

end FormRules
