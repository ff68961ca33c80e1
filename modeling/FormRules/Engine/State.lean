import FormRules.Negation.Resolver
import FormRules.Script.Event

/-!
# The state of the engine

Hosts and queries live in two lists and are named by their positions. A host is a form with its own
copies of the action and evaluation tables, the resolver of opposites, its subscriptions and the
queries made through it. A query is a choice of clauses, each a list of conditions that must all
hold; a bracketed part of a rule is a query of its own, with the query around it as its parent.

What is left to do is the agenda, a list of tasks. Whoever re-enters the engine puts tasks in front
of those that are waiting, so the agenda is the stack of a nested computation spread out as a list.
-/

namespace FormRules

/-- The position of a host in the engine. -/
abbrev HostId := Nat

/-- The position of a query in the engine. -/
abbrev QueryId := Nat

/-- The position of a session in the engine. -/
abbrev SessionId := Nat

/-- A named flag of a session. -/
structure FlagRef where
  session : SessionId
  name : String
deriving DecidableEq, Repr, Inhabited

/-! ## Queries -/

/-- A condition of a clause. -/
inductive Leaf
  /-- The result of another query. -/
  | query (q : QueryId)
  | flag (ref : FlagRef) (logged : Bool)
  /-- A value that the host's evaluation table checks. -/
  | check (host : HostId) (spec : Spec) (condition : Value)
  /-- A test of the value of the fields that `field` names. -/
  | test (host : HostId) (field : String) (spec : Spec) (t : Test) (label : Option String)
deriving Inhabited

/-- What runs when the result of a query changes. -/
inductive Callback
  | script (label : String) (run : List Step)
  /-- An action list; `spent` once it ran for the last time. -/
  | attached (host : HostId) (p : Polarity) (actions : List (Token Step)) (args : Args)
      (spent : Bool)
deriving Inhabited

/-- A query. Of a tree of queries only the root uses its state, mode and callbacks. -/
structure Query where
  parent : Option QueryId := none
  clauses : List (List Leaf) := [[]]
  /-- The result at the last round of callbacks. -/
  last : Option Bool := none
  paused : Bool := false
  /-- Whether direct actions attach to the failing branch. -/
  negateDirect : Bool := false
  callbacks : List Callback := []
deriving Inhabited

/-! ## Hosts -/

/-- Who hears of the changes of fields. -/
inductive Listener
  | query (q : QueryId)
  | script (label : String) (run : List Step)
deriving Inhabited

/-- A listener with the fields it listens to; `none` is every field. -/
structure Subscription where
  fields : Option (List Handle)
  listener : Listener
deriving Inhabited

/-- Whether a change of the field concerns the subscription. -/
def Subscription.covers (s : Subscription) (h : Handle) : Bool := s.fields.all (·.contains h)

/-- A form with its rules. -/
structure Host where
  config : Config Action
  form : Form
  /-- Whether effects and writes are logged. -/
  watched : Bool := false
  actions : Registry Action
  resolver : Resolver
  evaluations : EvaluationTable
  subscriptions : List Subscription := []
  queries : List QueryId := []
  changed : Bool := false

/-- A host for a form. The tables are copied, so that what is registered later stays with the
form. -/
def Host.new (config : Config Action) (form : Form) (watched : Bool) : Host where
  config
  form
  watched
  actions := config.actions
  resolver := config.negatives.foldl (fun r (a, b) => r.register a b) { rules := config.affixes }
  evaluations := config.evaluations

/-! ## Sessions -/

/-- Who hears that a flag was set. -/
inductive FlagListener
  /-- A query with the flag as condition, if it still exists. -/
  | query (q : QueryId)
  | log (label : String)
deriving Inhabited

/-- A flag with those who listen to it. -/
structure Flag where
  value : Bool := false
  listeners : List FlagListener := []
deriving Inhabited

/-- A rule under construction. -/
structure Facet where
  kind : FacetKind
  host : HostId
  query : QueryId
deriving DecidableEq, Repr, Inhabited

/-- What a script can name: a host, rules, queries and flags. -/
structure Session where
  host : Option HostId := none
  rules : List (String × Facet) := []
  queries : List (String × QueryId) := []
  flags : List (String × Flag) := []
  /-- The fields of the form as the session last showed them. -/
  shown : List FieldState := []
deriving Inhabited

/-! ## Tasks -/

/-- Something left to do. -/
inductive Task
  | step (s : Step)
  /-- Logs the answer of a step within a script. -/
  | ran (step : String)
  | answer (a : Answer)
  /-- Answers with the query in numbers. -/
  | summarize (q : QueryId)
  /-- Does nothing, but keeps what it names in use until its turn. -/
  | hold (hosts : List HostId) (queries : List QueryId)
  | chain (facet : Facet) (ops : List (ChainOp Step)) (name : Option String)
  | trigger (q : QueryId)
  /-- Runs the callbacks at these positions for one change of the result. -/
  | round (q : QueryId) (state skip : Bool) (pending : List Nat)
  | deliver (q : QueryId) (callback : Nat) (state skip : Bool)
  /-- Applies the tokens; the report is about those before, and is the answer if `answers`. -/
  | dispatch (host : HostId) (tokens : List (Token Step)) (args : Args) (negate skip : Bool)
      (report : Report) (answers : Bool)
  | perform (host : HostId) (action : Action) (args : Args) (skip : Bool)
  | effect (host : HostId) (field : String) (e : Effect) (s : Switch) (skip answers : Bool)
  | write (host : HostId) (field : String) (v : Value) (automatic : Bool)
  | log (event : Event)
  | notify (host : HostId) (changed : List Handle) (automatic : Bool)
  | inform (listeners : List Listener) (field : String) (v : Option Value) (automatic : Bool)
  | flagSet (listeners : List FlagListener)
deriving Inhabited

/-- The tasks of a script: its steps, with their answers in the log. -/
def Task.ofScript (run : List Step) : List Task := run.flatMap fun s => [.step s, .ran s.name]

/-! ## The engine -/

/-- The state of the engine. -/
structure Engine where
  hosts : List Host := []
  queries : List Query := []
  sessions : List Session := []
  /-- The session of the running script. -/
  current : SessionId := 0
  /-- Hosts that are in use from outside. -/
  pinned : List HostId := []
  log : Array Event := #[]
  /-- The answer of the last step. -/
  answer : Answer := .nothing
  agenda : List Task := []
deriving Inhabited

namespace Engine

/-- The host of a position. -/
def host? (e : Engine) (h : HostId) : Option Host := e.hosts[h]?

/-- The query of a position. -/
def query? (e : Engine) (q : QueryId) : Option Query := e.queries[q]?

/-- The session of the running script. -/
def session (e : Engine) : Session := e.sessions[e.current]?.getD {}

/-- Changes one host. -/
def updateHost (e : Engine) (h : HostId) (f : Host → Host) : Engine :=
  { e with hosts := e.hosts.modify h f }

/-- Changes one query. -/
def updateQuery (e : Engine) (q : QueryId) (f : Query → Query) : Engine :=
  { e with queries := e.queries.modify q f }

/-- Changes the session of the running script. -/
def updateSession (e : Engine) (f : Session → Session) : Engine :=
  { e with sessions := e.sessions.modify e.current f }

/-- Adds events to the log. -/
def record (e : Engine) (events : List Event) : Engine :=
  { e with log := e.log ++ events.toArray }

/-- Adds a diagnostic to the log. -/
def note (e : Engine) (d : Diagnostic) : Engine := e.record [.diagnostic d]

/-- Puts tasks in front of the agenda. -/
def schedule (e : Engine) (tasks : List Task) : Engine := { e with agenda := tasks ++ e.agenda }

/-- Sets the answer of the running step. -/
def reply (e : Engine) (a : Answer) : Engine := { e with answer := a }

/-- Runs a traced computation and keeps its events. -/
def observe {α : Type} (e : Engine) (x : Traced α) : α × Engine := (x.value, e.record x.events)

/-- Adds a query. -/
def addQuery (e : Engine) (parent : Option QueryId) : QueryId × Engine :=
  (e.queries.length, { e with queries := e.queries ++ [{ parent }] })

/-! ## Flags -/

/-- A flag of a session; a new one is false and has no listeners. -/
def flag (e : Engine) (ref : FlagRef) : Flag :=
  ((e.sessions[ref.session]?.getD {}).flags.lookup ref.name).getD {}

/-- The flags of the running script's session. -/
def flags (e : Engine) : Flags := fun name => (e.flag ⟨e.current, name⟩).value

/-- Changes a flag. -/
def updateFlag (e : Engine) (ref : FlagRef) (f : Flag → Flag) : Engine :=
  let flag := f (e.flag ref)
  { e with
    sessions := e.sessions.modify ref.session fun s =>
      { s with flags := Roster.put Prod.fst (ref.name, flag) s.flags } }

/-! ## Names -/

/-- Gives a query a name in the session. -/
def nameQuery (e : Engine) (name : String) (q : QueryId) : Engine :=
  e.updateSession fun s => { s with queries := Roster.put Prod.fst (name, q) s.queries }

/-- The query of a name; a name without one gets a new query. -/
def named (e : Engine) (name : String) : QueryId × Engine :=
  match e.session.queries.lookup name with
  | some q => (q, e)
  | none =>
    let (q, e) := e.addQuery none
    (q, e.nameQuery name q)

end Engine

end FormRules
