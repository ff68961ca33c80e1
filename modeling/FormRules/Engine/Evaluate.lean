import FormRules.Engine.Liveness
import FormRules.Field.Parser

/-!
# Evaluating conditions

Evaluation reads the engine and changes nothing but the log. A query holds if all conditions of one
of its clauses hold; conditions and clauses are tried from left to right, and no further than needed.
A condition on a form whose host is gone fails.
-/

namespace FormRules

/-! ## Identifiers and fields -/

/-- Reads an identifier; a malformed one picks no field and is reported. -/
def Spec.read (text : String) : Traced Spec :=
  match Spec.parse text with
  | .ok spec => pure spec
  | .error failure => do
    Traced.note (.malformedIdentifier (ParseError.message ⟨text, failure⟩))
    return .fields []

theorem Spec.value_read (text : String) : (Spec.read text).value = Spec.lenient text := by
  unfold Spec.read Spec.lenient
  cases Spec.parse text <;> rfl

namespace Host

/-- The fields that some selector picks, in the order of the first that does; selectors that pick
none are reported. -/
def resolveAll (host : Host) (quiet : Bool) (found : List Handle) :
    List Selector → Traced (List Handle)
  | [] => pure found
  | s :: ss => do
    let new := host.form.resolve s
    if new = [] ∧ quiet = false then Traced.note (.noFieldsFound host.form.id s.render)
    resolveAll host quiet (Form.unionHandles found new) ss

/-- The fields of an identifier. -/
def resolve (host : Host) (spec : Spec) (quiet : Bool) : Traced (List Handle) :=
  match spec with
  | .all => pure host.form.handles
  | .fields ss => host.resolveAll quiet [] ss

/-- The fields of an identifier that is still text. -/
def fields (host : Host) (text : String) (quiet : Bool) : Traced (List Handle) := do
  host.resolve (← Spec.read text) quiet

/-- The value of an identifier. -/
def valueOf (host : Host) (spec : Spec) : Traced (Option Value) := do
  return host.form.groupValue (← host.resolve spec false)

end Host

/-! ## Checks -/

/-- Checks a condition on a field. -/
def Evaluation.checkField (entry : Evaluation) (flags : Flags) (condition : Value)
    (f : FieldState) (v : Option Value) : Traced Bool := do
  let result := entry.predicate flags condition f v
  Traced.emitLabelled entry.label fun label => .check label condition f.id f.value v result
  return result

/-- Checks a condition on all fields of an identifier. If there are none, the entry's default is the
result. -/
def Host.check (host : Host) (flags : Flags) (spec : Spec) (condition : Value) : Traced Bool := do
  let entry := host.evaluations.lookup condition
  let hs ← host.resolve spec false
  if hs = [] then return entry.default
  hs.allM fun h => match host.form.field? h with
    | some f => entry.checkField flags condition f (host.form.value? h)
    | none => return true

/-- Asks a test about the value of the fields of an identifier. The blank identifier has no name and
no value, and neither has a form whose host is gone. -/
def Engine.askTest (e : Engine) (h : HostId) (field : String) (spec : Spec) (t : Test)
    (label : Option String) : Traced Bool := do
  let v ← match spec.isAll, (e.host? h).filter fun _ => e.hostInUse h with
    | false, some host => host.valueOf spec
    | _, _ => pure none
  let field := if spec.isAll then "" else field
  let result := t.holds e.flags v
  Traced.emitLabelled label fun label => .test label field v result
  return result

/-! ## Queries -/

namespace Engine

/-- Evaluates one condition, where `query` evaluates other queries. -/
def evaluateLeaf (e : Engine) (query : QueryId → Traced Bool) : Leaf → Traced Bool
  | .query q => query q
  | .flag ref logged => do
    let value := (e.flag ref).value
    if logged then Traced.emit (.flag ref.name value)
    return value
  | .check h spec condition =>
    match (e.host? h).filter fun _ => e.hostInUse h with
    | some host => host.check e.flags spec condition
    | none => return false
  | .test h field spec t label => e.askTest h field spec t label

/-- Evaluates a query whose brackets are at most `n` deep. -/
def evaluateWithin (e : Engine) : Nat → QueryId → Traced Bool
  | 0, _ => return false
  | n + 1, q =>
    match e.query? q with
    | some s => s.clauses.anyM (·.allM (e.evaluateLeaf (e.evaluateWithin n)))
    | none => return false

/-- Evaluates a query. Brackets are queries, so they are no deeper than there are queries. -/
def evaluate (e : Engine) (q : QueryId) : Traced Bool := e.evaluateWithin e.queries.length q

/-! ## Summaries -/

/-- A query in numbers. -/
def summary (e : Engine) (q : QueryId) : QuerySummary :=
  let own := (e.query? q).getD {}
  let root := (e.query? (e.root q)).getD {}
  { last := root.last
    paused := root.paused
    isRoot := e.isRoot q
    clauses := own.clauses.length
    callbacks := root.callbacks.length
    negate := root.negateDirect
    own := (own.parent.isNone, own.last, own.paused) }

/-- A rule under construction in numbers. -/
def facetSummary (e : Engine) (f : Facet) : FacetSummary :=
  let s := e.summary f.query
  ⟨f.kind, s.isRoot, s.last, s.clauses, s.callbacks⟩

end Engine

/-- A host in numbers. -/
def Host.summary (host : Host) : HostSummary where
  id := host.form.id
  queries := host.queries.length
  subscriptions := host.subscriptions.length
  changed := host.changed
  actions := host.actions.size
  configActions := host.config.actions.size
  configPatterns := host.config.evaluations.entries.length

end FormRules
