import FormRules.Engine.State

/-!
# What is still in use

A host is in use while a session, a rule kept by a name, a task or the outside holds it. A query is
in use while one of these holds it, while it belongs to a host in use, by its list or by a
subscription, or while it is a condition of a query in use. A bracket does not keep the query around
it: without anything else to hold the parent, the bracket becomes a root.
-/

namespace FormRules

namespace Task

/-- The hosts that a task keeps in use. -/
def hosts : Task → List HostId
  | hold hs _ => hs
  | chain facet .. => [facet.host]
  | dispatch h .. | perform h .. | effect h .. | write h .. | notify h .. => [h]
  | _ => []

/-- The queries that a task keeps in use. -/
def queries : Task → List QueryId
  | hold _ qs => qs
  | chain facet .. => [facet.query]
  | trigger q | round q .. | deliver q .. | summarize q => [q]
  | inform listeners .. => listeners.filterMap fun
    | .query q => some q
    | .script .. => none
  | _ => []

end Task

/-- The queries that a host keeps in use. -/
def Host.heldQueries (h : Host) : List QueryId :=
  h.queries ++ h.subscriptions.filterMap fun s => match s.listener with
    | .query q => some q
    | .script .. => none

/-- Whether a query is a condition of this one. -/
def Query.mentions (p : Query) (q : QueryId) : Bool :=
  p.clauses.any (·.any fun
    | .query r => r == q
    | _ => false)

namespace Engine

/-- Whether anything holds the host. -/
def hostInUse (e : Engine) (h : HostId) : Bool :=
  e.pinned.contains h ||
    e.sessions.any (fun s => s.host == some h || s.rules.any fun r => r.2.host == h) ||
    e.agenda.any fun t => t.hosts.contains h

/-- Whether anything but a clause holds the query. -/
def holdsDirectly (e : Engine) (q : QueryId) : Bool :=
  e.sessions.any (fun s =>
    s.queries.any (fun n => n.2 == q) || s.rules.any fun r => r.2.query == q) ||
    e.hosts.zipIdx.any (fun (host, h) => host.heldQueries.contains q && e.hostInUse h) ||
    e.agenda.any fun t => t.queries.contains q

/-- Whether the query is in use by a chain of at most `n` clauses. A longer chain than there are
queries comes back to itself, and queries that hold each other stay. -/
def inUseWithin (e : Engine) : Nat → QueryId → Bool
  | 0, _ => true
  | n + 1, q =>
    e.holdsDirectly q ||
      e.queries.zipIdx.any fun (p, i) => p.mentions q && e.inUseWithin n i

/-- Whether the query is in use. -/
def queryInUse (e : Engine) (q : QueryId) : Bool := e.inUseWithin (e.queries.length + 1) q

theorem inUseWithin_of_holdsDirectly {e : Engine} {q : QueryId} (h : e.holdsDirectly q = true)
    (n : Nat) : e.inUseWithin n q = true := by
  cases n <;> simp [inUseWithin, h]

/-! ## Trees of queries -/

/-- The parent of a query, as long as it is in use. -/
def parent? (e : Engine) (q : QueryId) : Option QueryId :=
  ((e.query? q).bind Query.parent).filter e.queryInUse

/-- The query at the end of at most `n` steps to parents. -/
def rootWithin (e : Engine) : Nat → QueryId → QueryId
  | 0, q => q
  | n + 1, q =>
    match e.parent? q with
    | some p => rootWithin e n p
    | none => q

/-- The query that keeps the state of a query's tree. Parents are older than their children, so
there are fewer steps than queries. -/
def root (e : Engine) (q : QueryId) : QueryId := e.rootWithin e.queries.length q

/-- Whether the query is a root. -/
def isRoot (e : Engine) (q : QueryId) : Bool := (e.parent? q).isNone

theorem rootWithin_of_isRoot {e : Engine} {q : QueryId} (h : e.isRoot q = true) (n : Nat) :
    e.rootWithin n q = q := by
  cases n with
  | zero => rfl
  | succ n =>
    simp only [isRoot, Option.isNone_iff_eq_none] at h
    simp [rootWithin, h]

theorem root_of_isRoot {e : Engine} {q : QueryId} (h : e.isRoot q = true) : e.root q = q :=
  rootWithin_of_isRoot h _

end Engine

end FormRules
