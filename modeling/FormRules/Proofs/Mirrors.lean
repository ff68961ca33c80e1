import FormRules.Proofs.Coverage
import FormRules.Proofs.Rounds

/-!
# What the work at hand does not depend on

What waits on the agenda below the work at hand matters to that work in one way only: it keeps forms
and queries in use. So if other tasks waited there that keep the same in use (`KeepSame`), then the
work would be the same, task by task, for any scripts, rules and actions. And the log, the answer of
the last step and the number of searches for an opposite are kept for those who look at the engine
from outside: no task reads them to decide anything.

`Engine.Mirrors` relates engines that differ in the tasks at the bottom, and if the comparison is
not exact, in what nothing reads. Every operation keeps it (`Mirrors.perform`), and so does a run as
long as there is work on top of these tasks (`Mirrors.run`).
-/

namespace FormRules

/-- The two lists of tasks keep the same forms and queries in use. -/
structure KeepSame (b b' : List Task) : Prop where
  hosts : ∀ h, (b'.any fun t => t.hosts.contains h) = b.any fun t => t.hosts.contains h
  queries : ∀ q, (b'.any fun t => t.queries.contains q) = b.any fun t => t.queries.contains q

theorem KeepSame.refl (b : List Task) : KeepSame b b := ⟨fun _ => rfl, fun _ => rfl⟩

/-! ## Hosts -/

/-- The resolver, without the number of its searches unless the comparison is exact. -/
def Resolver.upTo (exact : Bool) (r : Resolver) : Resolver :=
  { r with searches := if exact then r.searches else 0 }

/-- The host, without the number of searches unless the comparison is exact. -/
def Host.upTo (exact : Bool) (s : Host) : Host := { s with resolver := s.resolver.upTo exact }

/-- Opposites are registered in the same way whether searches are counted or not. -/
theorem Resolver.register_upTo (exact : Bool) (r : Resolver) (a b : String) :
    (r.register a b).upTo exact = (r.upTo exact).register a b := rfl

/-- The answer and the reports of a search do not depend on how many there were. -/
theorem Resolver.resolve_upTo (exact : Bool) (r : Resolver) (a : String) (named : String → Bool) :
    ((r.upTo exact).resolve a named).1 = (r.resolve a named).1 ∧
    ((r.upTo exact).resolve a named).2.1.upTo exact = (r.resolve a named).2.1.upTo exact ∧
    ((r.upTo exact).resolve a named).2.2 = (r.resolve a named).2.2 := by
  have hknown : (r.upTo exact).known a = r.known a := rfl
  have hrules : (r.upTo exact).rules = r.rules := rfl
  rw [resolve_eq, resolve_eq]
  rw [hknown]
  cases r.known a with
  | some b => cases exact <;> exact ⟨rfl, rfl, rfl⟩
  | none =>
    dsimp only
    rw [hrules]
    cases (r.rules.candidates a).find? named <;> cases exact <;> exact ⟨rfl, rfl, rfl⟩

namespace Host

/-- `t` is `s`, but for the number of searches if the comparison is not exact. -/
structure SameUpTo (exact : Bool) (s t : Host) : Prop where
  config : t.config = s.config
  form : t.form = s.form
  watched : t.watched = s.watched
  actions : t.actions = s.actions
  resolver : t.resolver.upTo exact = s.resolver.upTo exact
  evaluations : t.evaluations = s.evaluations
  subscriptions : t.subscriptions = s.subscriptions
  queries : t.queries = s.queries
  changed : t.changed = s.changed

variable {exact : Bool} {s t : Host}

/-- Hosts are the same if they are after what nothing reads has been dropped. -/
theorem sameUpTo_iff : s.SameUpTo exact t ↔ t.upTo exact = s.upTo exact := by
  simp only [upTo, Host.mk.injEq]
  exact ⟨fun ⟨h₁, h₂, h₃, h₄, h₅, h₆, h₇, h₈, h₉⟩ => ⟨h₁, h₂, h₃, h₄, h₅, h₆, h₇, h₈, h₉⟩,
    fun ⟨h₁, h₂, h₃, h₄, h₅, h₆, h₇, h₈, h₉⟩ => ⟨h₁, h₂, h₃, h₄, h₅, h₆, h₇, h₈, h₉⟩⟩

namespace SameUpTo

/-- Hosts that are the same answer alike for every identifier. -/
theorem isAlike (h : s.SameUpTo exact t) (spec : Spec) : s.IsAlike t spec :=
  ⟨h.form ▸ .refl _, h.evaluations, fun _ _ => by rw [h.form]⟩

/-- Hosts that are the same find the same fields. -/
theorem fields_eq (h : s.SameUpTo exact t) (text : String) (quiet : Bool) :
    t.fields text quiet = s.fields text quiet := by
  simp only [fields, (h.isAlike _).resolve_eq]

/-- Hosts that are the same find the same opposites, in the same way, and stay the same. -/
theorem resolve_eq (h : s.SameUpTo exact t) (name : String) :
    (t.resolver.resolve name t.actions.contains).1 =
      (s.resolver.resolve name s.actions.contains).1 ∧
    (t.resolver.resolve name t.actions.contains).2.1.upTo exact =
      (s.resolver.resolve name s.actions.contains).2.1.upTo exact ∧
    (t.resolver.resolve name t.actions.contains).2.2 =
      (s.resolver.resolve name s.actions.contains).2.2 := by
  obtain ⟨hs, hs', hs''⟩ := s.resolver.resolve_upTo exact name s.actions.contains
  obtain ⟨ht, ht', ht''⟩ := t.resolver.resolve_upTo exact name s.actions.contains
  rw [h.actions, ← hs, ← hs', ← hs'', ← ht, ← ht', ← ht'', h.resolver]
  exact ⟨rfl, rfl, rfl⟩

end SameUpTo

end Host

namespace Engine

/-! ## Mirrors -/

/-- `y` is `x` with the tasks `b'` at the bottom of the agenda in the place of `b`. Unless the
comparison is exact, they may also differ in the log, in the answer and in the numbers of
searches. -/
structure Mirrors (exact : Bool) (b b' : List Task) (x y : Engine) : Prop where
  agenda : ∃ top, x.agenda = top ++ b ∧ y.agenda = top ++ b'
  hosts : y.hosts.map (Host.upTo exact) = x.hosts.map (Host.upTo exact)
  queries : y.queries = x.queries
  sessions : y.sessions = x.sessions
  current : y.current = x.current
  pinned : y.pinned = x.pinned
  log : exact = true → y.log = x.log
  answer : exact = true → y.answer = x.answer

namespace Mirrors

variable {exact : Bool} {b b' : List Task} {x y : Engine}

/-- In an exact comparison only the agendas differ. -/
theorem eq_of_exact (m : Mirrors true b b' x y) : y = { x with agenda := y.agenda } := by
  have hexact : ∀ s : Host, s.upTo true = s := fun _ => rfl
  have hhosts : y.hosts = x.hosts := by simpa [funext hexact] using m.hosts
  have hlog := m.log rfl
  have hanswer := m.answer rfl
  obtain ⟨-, -, hqueries, hsessions, hcurrent, hpinned, -, -⟩ := m
  cases x
  cases y
  simp_all

/-! ### Changes -/

/-- Tasks go on top of both agendas. -/
theorem schedule (m : Mirrors exact b b' x y) (tasks : List Task) :
    Mirrors exact b b' (x.schedule tasks) (y.schedule tasks) where
  agenda := by
    obtain ⟨top, hx, hy⟩ := m.agenda
    exact ⟨tasks ++ top, by simp [Engine.schedule, hx], by simp [Engine.schedule, hy]⟩
  hosts := m.hosts
  queries := m.queries
  sessions := m.sessions
  current := m.current
  pinned := m.pinned
  log := m.log
  answer := m.answer

/-- The events have to be the same for an exact comparison only. -/
theorem recordAs (m : Mirrors exact b b' x y) {events events' : List Event}
    (h : exact = true → events' = events) :
    Mirrors exact b b' (x.record events) (y.record events') :=
  { m with log := fun he => by rw [Engine.record, Engine.record, m.log he, h he] }

theorem record (m : Mirrors exact b b' x y) (events : List Event) :
    Mirrors exact b b' (x.record events) (y.record events) := m.recordAs fun _ => rfl

/-- The answers have to be the same for an exact comparison only. -/
theorem replyAs (m : Mirrors exact b b' x y) {a a' : Answer} (h : exact = true → a' = a) :
    Mirrors exact b b' (x.reply a) (y.reply a') :=
  { m with answer := h }

theorem reply (m : Mirrors exact b b' x y) (a : Answer) :
    Mirrors exact b b' (x.reply a) (y.reply a) := m.replyAs fun _ => rfl

theorem updateQuery (m : Mirrors exact b b' x y) (q : QueryId) (f : Query → Query) :
    Mirrors exact b b' (x.updateQuery q f) (y.updateQuery q f) :=
  { m with queries := by rw [Engine.updateQuery, Engine.updateQuery, m.queries] }

theorem updateSession (m : Mirrors exact b b' x y) (f : Session → Session) :
    Mirrors exact b b' (x.updateSession f) (y.updateSession f) :=
  { m with
    sessions := by rw [Engine.updateSession, Engine.updateSession, m.sessions, m.current] }

theorem updateFlag (m : Mirrors exact b b' x y) (ref : FlagRef) (f : Flag → Flag) :
    Mirrors exact b b' (x.updateFlag ref f) (y.updateFlag ref f) :=
  { m with
    sessions := by simp only [Engine.updateFlag, Engine.flag, m.sessions] }

theorem addQuery (m : Mirrors exact b b' x y) (parent : Option QueryId) :
    Mirrors exact b b' (x.addQuery parent).2 (y.addQuery parent).2 :=
  { m with queries := by simp only [Engine.addQuery, m.queries] }

theorem addQuery_fst (m : Mirrors exact b b' x y) (parent : Option QueryId) :
    (y.addQuery parent).1 = (x.addQuery parent).1 := congrArg List.length m.queries

theorem nameQuery (m : Mirrors exact b b' x y) (name : String) (q : QueryId) :
    Mirrors exact b b' (x.nameQuery name q) (y.nameQuery name q) := m.updateSession _

theorem keepRule (m : Mirrors exact b b' x y) (f : Facet) (name : String) :
    Mirrors exact b b' (x.keepRule f name) (y.keepRule f name) :=
  (m.nameQuery name f.query).updateSession _

/-- A host may be changed on both sides if that leaves the same host. -/
theorem updateHost (m : Mirrors exact b b' x y) (h : HostId) {f g : Host → Host}
    (hfg : ∀ s t, s.SameUpTo exact t → (f s).SameUpTo exact (g t)) :
    Mirrors exact b b' (x.updateHost h f) (y.updateHost h g) :=
  { m with
    hosts := by
      refine List.ext_getElem? fun i => ?_
      have hi := congrArg (·[i]?) m.hosts
      simp only [List.getElem?_map] at hi
      simp only [Engine.updateHost, List.getElem?_map, List.getElem?_modify]
      cases hx : x.hosts[i]? with
      | none =>
        rw [hx, Option.map_none, Option.map_eq_none_iff] at hi
        rw [hi]
        rfl
      | some s =>
        rw [hx, Option.map_some] at hi
        obtain ⟨t, ht, hts⟩ := Option.map_eq_some_iff.1 hi
        have hchanged := Host.sameUpTo_iff.1 (hfg s t (Host.sameUpTo_iff.2 hts))
        rw [ht]
        by_cases hhi : h = i
        · simp [hhi, hchanged]
        · simp [hhi, hts] }

/-- Both sides may be given the same form. -/
theorem replaceForm (m : Mirrors exact b b' x y) (i : HostId) (form : Form) :
    Mirrors exact b b' (x.updateHost i fun s => { s with form })
      (y.updateHost i fun s => { s with form }) :=
  m.updateHost i fun _ _ hst => { hst with form := rfl }

/-! ### Readings -/

/-- Both sides have the same queries. -/
theorem query?_eq (m : Mirrors exact b b' x y) (q : QueryId) : y.query? q = x.query? q := by
  rw [query?, query?, m.queries]

/-- Both sides are in the same session. -/
theorem session_eq (m : Mirrors exact b b' x y) : y.session = x.session := by
  rw [session, session, m.sessions, m.current]

/-- Both sides have the same flags. -/
theorem flag_eq (m : Mirrors exact b b' x y) (ref : FlagRef) : y.flag ref = x.flag ref := by
  rw [flag, flag, m.sessions]

theorem flags_eq (m : Mirrors exact b b' x y) : y.flags = x.flags := by
  funext name
  rw [flags, flags, m.flag_eq, m.current]

/-- A form that one of the two has, the other has too. -/
theorem host?_cases (m : Mirrors exact b b' x y) (i : HostId) :
    (x.host? i = none ∧ y.host? i = none) ∨ ∃ s t, x.host? i = some s ∧ y.host? i = some t ∧
      s.SameUpTo exact t := by
  have hi : (y.host? i).map (Host.upTo exact) = (x.host? i).map (Host.upTo exact) := by
    rw [host?, host?, ← List.getElem?_map, ← List.getElem?_map, m.hosts]
  cases hx : x.host? i with
  | none =>
    rw [hx, Option.map_none, Option.map_eq_none_iff] at hi
    exact .inl ⟨rfl, hi⟩
  | some s =>
    rw [hx, Option.map_some] at hi
    obtain ⟨t, ht, hts⟩ := Option.map_eq_some_iff.1 hi
    exact .inr ⟨s, t, rfl, ht, Host.sameUpTo_iff.2 hts⟩

section InUse

variable (h : KeepSame b b')

include h

/-- The tasks at the bottom keep the same hosts in use on both sides. -/
theorem hostInUse_eq (m : Mirrors exact b b' x y) (i : HostId) :
    y.hostInUse i = x.hostInUse i := by
  obtain ⟨top, hx, hy⟩ := m.agenda
  simp only [hostInUse, hx, hy, m.pinned, m.sessions, List.any_append, h.hosts]

/-- The tasks at the bottom keep the same queries in use on both sides. -/
theorem holdsDirectly_eq (m : Mirrors exact b b' x y) (q : QueryId) :
    y.holdsDirectly q = x.holdsDirectly q := by
  obtain ⟨top, hx, hy⟩ := m.agenda
  have hheld : ∀ (hosts : List Host) (f : Host × Nat → Bool),
      (∀ s i, f (s.upTo exact, i) = f (s, i)) →
      hosts.zipIdx.any f = (hosts.map (Host.upTo exact)).zipIdx.any f := fun hosts f hf => by
    rw [List.zipIdx_map, List.any_map]
    exact congrArg _ (funext fun p => (hf p.1 p.2).symm)
  have hinUse : y.hostInUse = x.hostInUse := funext (m.hostInUse_eq h)
  rw [holdsDirectly, holdsDirectly, hinUse, hheld x.hosts _ fun _ _ => rfl,
    hheld y.hosts _ fun _ _ => rfl, m.hosts, m.sessions, hx, hy, List.any_append, List.any_append,
    h.queries]

/-- So do the queries themselves, which mention the same ones. -/
theorem queryInUse_eq (m : Mirrors exact b b' x y) (q : QueryId) :
    y.queryInUse q = x.queryInUse q := by
  have hwithin : ∀ n p, y.inUseWithin n p = x.inUseWithin n p := by
    intro n
    induction n with
    | zero => exact fun _ => rfl
    | succ n ih =>
      intro p
      simp only [inUseWithin, m.holdsDirectly_eq h, m.queries, ih]
  rw [queryInUse, queryInUse, hwithin, m.queries]

theorem parent?_eq (m : Mirrors exact b b' x y) (q : QueryId) : y.parent? q = x.parent? q := by
  rw [parent?, parent?, funext (m.queryInUse_eq h), m.query?_eq]

/-- A tree has the same root on both sides, since the same brackets are in use. -/
theorem root_eq (m : Mirrors exact b b' x y) (q : QueryId) : y.root q = x.root q := by
  have hwithin : ∀ n p, y.rootWithin n p = x.rootWithin n p := by
    intro n
    induction n with
    | zero => exact fun _ => rfl
    | succ n ih =>
      intro p
      simp only [rootWithin, m.parent?_eq h, ih]
  rw [root, root, hwithin, m.queries]

/-- A query has the same result on both sides, and the same events on the way. -/
theorem evaluate_eq (m : Mirrors exact b b' x y) (q : QueryId) : y.evaluate q = x.evaluate q := by
  have hleaf : y.evaluateLeaf = x.evaluateLeaf := by
    funext query leaf
    cases leaf with
    | query q => rfl
    | flag ref logged => rw [evaluateLeaf, evaluateLeaf, m.flag_eq]
    | check i spec condition =>
      rw [evaluateLeaf, evaluateLeaf, m.flags_eq, m.hostInUse_eq h]
      obtain ⟨hx, hy⟩ | ⟨s, t, hx, hy, hst⟩ := m.host?_cases i
      · rw [hx, hy]
      · rw [hx, hy]
        cases x.hostInUse i with
        | false => rfl
        | true => exact (hst.isAlike spec).check_eq x.flags condition
    | test i field spec test label =>
      rw [evaluateLeaf, evaluateLeaf, askTest, askTest, m.flags_eq, m.hostInUse_eq h]
      obtain ⟨hx, hy⟩ | ⟨s, t, hx, hy, hst⟩ := m.host?_cases i
      · rw [hx, hy]
      · rw [hx, hy]
        cases x.hostInUse i with
        | false => rfl
        | true =>
          have hvalue : t.valueOf spec = s.valueOf spec := (hst.isAlike spec).valueOf_eq
          cases spec.isAll <;> simp only [Option.filter, if_true, hvalue]
  have hwithin : ∀ n, y.evaluateWithin n = x.evaluateWithin n := by
    intro n
    induction n with
    | zero => rfl
    | succ n ih =>
      funext q
      simp only [evaluateWithin, ih, hleaf, m.query?_eq]
  rw [evaluate, evaluate, hwithin, m.queries]

theorem summary_eq (m : Mirrors exact b b' x y) (q : QueryId) : y.summary q = x.summary q := by
  simp only [summary, isRoot, m.root_eq h, m.parent?_eq h, m.query?_eq]

/-- The root of a tree may be changed on both sides. -/
theorem updateRoot (m : Mirrors exact b b' x y) (q : QueryId) (f : Query → Query) :
    Mirrors exact b b' (x.updateQuery (x.root q) f) (y.updateQuery (y.root q) f) := by
  rw [m.root_eq h]
  exact m.updateQuery _ f

end InUse

/-! ### Operations that do not ask what is in use -/

/-- A name means the same query on both sides. -/
theorem named (m : Mirrors exact b b' x y) (name : String) : (y.named name).1 = (x.named name).1 ∧
    Mirrors exact b b' (x.named name).2 (y.named name).2 := by
  simp only [Engine.named, m.session_eq]
  cases x.session.queries.lookup name with
  | some q => exact ⟨rfl, m⟩
  | none =>
    simp only [m.addQuery_fst]
    exact ⟨trivial, (m.addQuery none).nameQuery name _⟩

theorem nodeLeaf (m : Mirrors exact b b' x y) (n : NodeSpec) :
    (y.nodeLeaf n).1 = (x.nodeLeaf n).1 ∧
      Mirrors exact b b' (x.nodeLeaf n).2 (y.nodeLeaf n).2 := by
  cases n with
  | query name =>
    obtain ⟨hnamed, hm⟩ := m.named name
    simp only [Engine.nodeLeaf, hnamed]
    exact ⟨trivial, hm⟩
  | flag name observable logged =>
    simp only [Engine.nodeLeaf, m.current]
    exact ⟨trivial, m⟩

/-- A condition may be added on both sides. -/
theorem addCondition (m : Mirrors exact b b' x y) (q : QueryId) (leaf : Leaf) (observable : Bool) :
    Mirrors exact b b' (x.addCondition q leaf observable) (y.addCondition q leaf observable) := by
  have hquery := m.updateQuery q fun s =>
    { s with clauses := s.clauses.modify (s.clauses.length - 1) (· ++ [leaf]) }
  unfold Engine.addCondition observeLeaf
  cases leaf with
  | flag ref logged =>
    cases observable with
    | true =>
      exact hquery.updateFlag ref fun f => { f with listeners := f.listeners ++ [.query q] }
    | false => exact hquery
  | _ => exact hquery

/-- A subscription is resolved to the same fields on both sides. -/
theorem subscribe (m : Mirrors exact b b' x y) (i : HostId) (spec : Spec) (l : Listener) :
    Mirrors exact b b' (x.subscribe i spec l) (y.subscribe i spec l) := by
  unfold Engine.subscribe
  obtain ⟨hx, hy⟩ | ⟨s, t, hx, hy, hst⟩ := m.host?_cases i
  · simp only [hx, hy]
    exact m
  · have hresolve : ∀ spec, t.resolve spec false = s.resolve spec false := fun spec =>
      (hst.isAlike spec).resolve_eq false
    simp only [hx, hy, hresolve]
    exact (m.record _).updateHost i fun s t hst =>
      { hst with subscriptions := by simp [hst.subscriptions, observe] }

theorem listenTo (m : Mirrors exact b b' x y) (f : Facet) (spec : Spec) :
    Mirrors exact b b' (x.listenTo f spec) (y.listenTo f spec) := by
  unfold Engine.listenTo
  cases spec.isAll with
  | true => exact m
  | false => exact m.subscribe f.host spec.trigger (.query f.query)

/-- Both sides find the same opposite, though perhaps not after the same number of searches. -/
theorem negative (m : Mirrors exact b b' x y) (i : HostId) (name : String) :
    (y.negative i name).1 = (x.negative i name).1 ∧
      Mirrors exact b b' (x.negative i name).2 (y.negative i name).2 := by
  unfold Engine.negative
  obtain ⟨hx, hy⟩ | ⟨s, t, hx, hy, hst⟩ := m.host?_cases i
  · simp only [hx, hy]
    exact ⟨trivial, m⟩
  · obtain ⟨hfound, hresolver, hnotes⟩ := hst.resolve_eq name
    simp only [hx, hy, hfound, hnotes]
    refine ⟨trivial, (m.updateHost i fun s t hst => ?_).record _⟩
    exact { hst with resolver := hresolver }

/-- Both sides know the same actions. -/
theorem invoke (m : Mirrors exact b b' x y) (i : HostId) (name : String) (args : Args) (skip : Bool)
    (report : Report) (next : Report → Task) :
    Mirrors exact b b' (x.invoke i name args skip report next)
      (y.invoke i name args skip report next) := by
  unfold Engine.invoke
  obtain ⟨hx, hy⟩ | ⟨s, t, hx, hy, hst⟩ := m.host?_cases i
  · simp only [hx, hy]
    exact m
  · simp only [hx, hy, hst.actions, hst.form]
    cases s.actions.get? name with
    | some action => exact (m.record _).schedule _
    | none => exact (m.record _).schedule _

/-- A token does the same on both sides. -/
theorem dispatch (m : Mirrors exact b b' x y) (i : HostId) (args : Args) (negate skip : Bool)
    (report : Report) (next : Report → Task) (t : Token Step) :
    Mirrors exact b b' (x.dispatch i args negate skip report next t)
      (y.dispatch i args negate skip report next t) := by
  cases t with
  | custom label run =>
    cases negate with
    | true => exact (m.record _).schedule _
    | false => exact (m.record _).schedule _
  | named name =>
    cases negate with
    | true =>
      obtain ⟨hfound, hm⟩ := m.negative i name
      simp only [Engine.dispatch, if_true]
      rcases hx : x.negative i name with ⟨found, x'⟩
      rcases hy : y.negative i name with ⟨found', y'⟩
      rw [hx, hy] at hfound hm
      obtain rfl : found' = found := hfound
      cases found' with
      | none => exact hm.schedule _
      | some negative => exact hm.invoke i negative args skip report next
    | false => exact m.invoke i name args skip report next

/-- An effect changes the same fields on both sides. -/
theorem applyEffect (m : Mirrors exact b b' x y) (i : HostId) (field : String) (effect : Effect)
    (switch : Switch) (skip answers : Bool) :
    Mirrors exact b b' (x.applyEffect i field effect switch skip answers)
      (y.applyEffect i field effect switch skip answers) := by
  unfold Engine.applyEffect
  obtain ⟨hx, hy⟩ | ⟨s, t, hx, hy, hst⟩ := m.host?_cases i
  · simp only [hx, hy]
    exact m
  · simp only [hx, hy, hst.fields_eq, hst.form, hst.watched]
    refine schedule ?_ _
    have hform := (m.record (s.fields field false).events).replaceForm i
      (s.form.apply (s.fields field false).value effect switch).1
    cases s.watched with
    | true => exact hform.record _
    | false => exact hform

/-- A write changes the same fields on both sides. -/
theorem write (m : Mirrors exact b b' x y) (i : HostId) (field : String) (v : Value)
    (automatic : Bool) :
    Mirrors exact b b' (x.write i field v automatic) (y.write i field v automatic) := by
  unfold Engine.write
  obtain ⟨hx, hy⟩ | ⟨s, t, hx, hy, hst⟩ := m.host?_cases i
  · simp only [hx, hy]
    exact m
  · simp only [hx, hy, hst.fields_eq, hst.form, hst.watched]
    refine schedule ?_ _
    have hform := (m.record (s.fields field false).events).replaceForm i
      (s.form.write (s.fields field false).value v).1
    cases s.watched with
    | true => exact hform.record _
    | false => exact hform

/-- The same listeners hear of a change on both sides. -/
theorem notify (m : Mirrors exact b b' x y) (i : HostId) (changed : List Handle)
    (automatic : Bool) :
    Mirrors exact b b' (x.notify i changed automatic) (y.notify i changed automatic) := by
  unfold Engine.notify
  cases changed with
  | nil => exact m
  | cons f rest =>
    obtain ⟨hx, hy⟩ | ⟨s, t, hx, hy, hst⟩ := m.host?_cases i
    · simp only [hx, hy]
      exact m
    · simp only [hx, hy, hst.form, hst.subscriptions]
      refine (record ?_ _).schedule _
      cases automatic with
      | true => exact m
      | false => exact m.updateHost i fun s t hst => { hst with changed := rfl }

/-- A listener hears the same on both sides. -/
theorem inform (m : Mirrors exact b b' x y) (field : String) (v : Option Value) (automatic : Bool)
    (l : Listener) :
    Mirrors exact b b' (x.inform field v automatic l) (y.inform field v automatic l) := by
  cases l with
  | query q => exact m.schedule _
  | script label run => exact (m.record _).schedule _

/-- A condition is the same on both sides. -/
theorem conditionLeaf (m : Mirrors exact b b' x y) (i : HostId) (field : String) (spec : Spec)
    (c : ConditionSpec) :
    (y.conditionLeaf i field spec c).1 = (x.conditionLeaf i field spec c).1 ∧
      Mirrors exact b b' (x.conditionLeaf i field spec c).2 (y.conditionLeaf i field spec c).2 := by
  cases c with
  | value v => exact ⟨rfl, m⟩
  | test t label => exact ⟨rfl, m⟩
  | node n => exact m.nodeLeaf n

/-- The operations that take conditions lead to the same facet on both sides. -/
theorem conditionOp (m : Mirrors exact b b' x y) (f : Facet) (op : ChainOp Step) :
    (y.conditionOp f op).2 = (x.conditionOp f op).2 ∧
      Mirrors exact b b' (x.conditionOp f op).1 (y.conditionOp f op).1 := by
  cases op with
  | when c field =>
    simp only [Engine.conditionOp, observe]
    generalize Spec.read (field.getD formAlias) = read
    generalize field.getD formAlias = text
    obtain ⟨hleaf, hm⟩ := (m.record read.events).conditionLeaf f.host text read.value c
    rcases hx : (x.record read.events).conditionLeaf f.host text read.value c with
      ⟨⟨leaf, observable⟩, x₁⟩
    rcases hy : (y.record read.events).conditionLeaf f.host text read.value c with ⟨found, y₁⟩
    rw [hx, hy] at hleaf hm
    obtain rfl : found = (leaf, observable) := hleaf
    exact ⟨trivial, (hm.addCondition f.query leaf observable).listenTo f read.value⟩
  | on field => exact ⟨rfl, (m.record _).listenTo f _⟩
  | openBracket =>
    simp only [Engine.conditionOp, m.addQuery_fst]
    exact ⟨trivial, ((m.addQuery _).addCondition f.query _ _).listenTo f _⟩
  | _ => exact ⟨rfl, m⟩

/-- A rule starts at the same query on both sides. -/
theorem startRule (m : Mirrors exact b b' x y) (i : HostId) (source : Option String) :
    (y.startRule i source).1 = (x.startRule i source).1 ∧
      Mirrors exact b b' (x.startRule i source).2 (y.startRule i source).2 := by
  simp only [Engine.startRule, m.session_eq]
  cases source.bind fun name => x.session.rules.lookup name with
  | some f => exact ⟨rfl, m⟩
  | none =>
    simp only [m.addQuery_fst]
    exact ⟨trivial, (m.addQuery none).updateHost i fun s t hst =>
      { hst with queries := by rw [hst.queries] }⟩

/-- A step about the host finds the same host on both sides, up to what nothing reads. -/
theorem hostStep (m : Mirrors exact b b' x y) (i : HostId) {s t : Host}
    (hst : s.SameUpTo exact t) (step : Step) :
    Mirrors exact b b' (x.hostStep i s step) (y.hostStep i t step) := by
  cases step with
  | rule chain name source =>
    obtain ⟨hfacet, hm⟩ := m.startRule i source
    simp only [Engine.hostStep, hfacet]
    exact hm.schedule _
  | write field v automatic => exact m.schedule _
  | effect field effect s skip => exact m.schedule _
  | listen field label run => exact ((m.record _).subscribe i _ _).reply _
  | dispatch actions args negate skip => exact m.schedule _
  | eval field condition =>
    have hcheck : (do t.check x.flags (← Spec.read field) condition) =
        (do s.check x.flags (← Spec.read field) condition) :=
      congrArg _ (funext fun spec => (hst.isAlike spec).check_eq _ _)
    simp only [Engine.hostStep, m.flags_eq, hcheck]
    exact (m.record _).reply _
  | value field =>
    have hvalue : (do t.valueOf (← Spec.read field)) = (do s.valueOf (← Spec.read field)) :=
      congrArg _ (funext fun spec => (hst.isAlike spec).valueOf_eq)
    simp only [Engine.hostStep, hvalue]
    exact (m.record _).reply _
  | fields field =>
    simp only [Engine.hostStep, hst.fields_eq]
    exact (m.record _).reply _
  | «exists» field =>
    simp only [Engine.hostStep, hst.fields_eq]
    exact (m.record _).reply _
  | state field =>
    simp only [Engine.hostStep, hst.fields_eq, hst.form]
    exact (m.record _).reply _
  | notify handles automatic => exact m.schedule _
  | triggerAll =>
    simp only [Engine.hostStep, hst.form, hst.queries]
    exact (m.record _).schedule _
  | hasChanged => exact m.replyAs fun _ => by rw [hst.changed]
  | negative name =>
    obtain ⟨hfound, hm⟩ := m.negative i name
    simp only [Engine.hostStep, hfound]
    exact hm.reply _
  | searches =>
    refine m.replyAs fun he => ?_
    subst he
    rw [show t.resolver = s.resolver from hst.resolver]
  | actionNames => exact m.replyAs fun _ => by rw [hst.actions]
  | actionExists name => exact m.replyAs fun _ => by rw [hst.actions]
  | registerAction a =>
    refine (m.updateHost i fun s t hst => ?_).reply _
    exact { hst with actions := by rw [hst.actions] }
  | registerNegative action negative =>
    refine (m.updateHost i fun s t hst => ?_).reply _
    exact
      { hst with
        resolver := by rw [Resolver.register_upTo, hst.resolver, ← Resolver.register_upTo] }
  | registerEvaluation pattern default test label =>
    simp only [Engine.hostStep, hst.config]
    cases Evaluation.compile pattern default test.check label s.config.regex with
    | ok entry =>
      refine (m.updateHost i fun s t hst => ?_).reply _
      exact { hst with evaluations := by rw [hst.evaluations] }
    | error _ => exact m.reply _
  | info =>
    refine m.replyAs fun _ => ?_
    rw [Host.summary, Host.summary, hst.form, hst.queries, hst.subscriptions, hst.changed, hst.actions,
      hst.config]
  | setFlag name value => exact m
  | dropRule name => exact m
  | dropHost => exact m
  | query name op => exact m

/-! ### Operations that ask what is in use -/

section InUse

variable (h : KeepSame b b')

include h

/-- A trigger starts the same round on both sides, or none. -/
theorem trigger (m : Mirrors exact b b' x y) (q : QueryId) :
    Mirrors exact b b' (x.trigger q) (y.trigger q) := by
  have hpaused : y.isPaused (x.root q) = x.isPaused (x.root q) := by
    rw [isPaused, isPaused, m.query?_eq]
  have hlast : y.last? (x.root q) = x.last? (x.root q) := by
    rw [last?, last?, queryAt, queryAt, m.query?_eq]
  have hcallbacks : y.callbacks (x.root q) = x.callbacks (x.root q) := by
    rw [callbacks, callbacks, m.query?_eq]
  rw [trigger_eq, trigger_eq, m.root_eq h, hpaused, hlast, m.evaluate_eq h]
  split
  · exact m.record _
  · split
    · exact m.record _
    · rw [startRound, startRound, m.evaluate_eq h, hcallbacks]
      exact (((m.record _).updateQuery _ _).record _).schedule _

/-- A new callback has the same task on both sides. -/
theorem addCallback (m : Mirrors exact b b' x y) (q : QueryId) (c : Callback) :
    (y.addCallback q c).1 = (x.addCallback q c).1 ∧
      Mirrors exact b b' (x.addCallback q c).2 (y.addCallback q c).2 := by
  have hroot := m.root_eq h q
  have hquery := m.query?_eq (x.root q)
  have hadded := m.updateQuery (x.root q) fun s => { s with callbacks := s.callbacks ++ [c] }
  simp only [Engine.addCallback, hroot, hquery, hadded.evaluate_eq h]
  split
  · exact ⟨rfl, hadded⟩
  · exact ⟨rfl, hadded.record _⟩

theorem attach (m : Mirrors exact b b' x y) (f : Facet) (c : Callback) :
    (y.attach f c).2 = (x.attach f c).2 ∧
      Mirrors exact b b' (x.attach f c).1 (y.attach f c).1 := by
  obtain ⟨htask, hadded⟩ := m.addCallback h (x.root f.query) c
  simp only [Engine.attach, m.root_eq h, htask]
  exact ⟨trivial, hadded⟩

theorem setDirect (m : Mirrors exact b b' x y) (q : QueryId) (failing : Bool) :
    Mirrors exact b b' (x.setDirect q failing) (y.setDirect q failing) := m.updateRoot h q _

/-- A list of actions is attached to the same branch on both sides. -/
theorem attachActions (m : Mirrors exact b b' x y) (f : Facet) (p : Polarity)
    (actions : List (Token Step)) (args : Args) :
    (y.attachActions f p actions args).2 = (x.attachActions f p actions args).2 ∧
      Mirrors exact b b' (x.attachActions f p actions args).1
        (y.attachActions f p actions args).1 := by
  cases p with
  | holding => exact (m.setDirect h f.query false).attach h f _
  | failing => exact (m.setDirect h f.query true).attach h f _
  | onlyHolding => exact m.attach h f _
  | onlyFailing => exact m.attach h f _
  | once => exact m.attach h f _

/-- The operations that take junctions lead to the same facet and tasks on both sides. -/
theorem junctionOp (m : Mirrors exact b b' x y) (f : Facet) (op : ChainOp Step) :
    (y.junctionOp f op).2 = (x.junctionOp f op).2 ∧
      Mirrors exact b b' (x.junctionOp f op).1 (y.junctionOp f op).1 := by
  cases op with
  | evaluate =>
    simp only [Engine.junctionOp, observe, m.evaluate_eq h]
    exact ⟨trivial, (m.record _).record _⟩
  | or => exact ⟨rfl, m.updateQuery _ _⟩
  | closeBracket =>
    simp only [Engine.junctionOp, m.parent?_eq h]
    exact ⟨trivial, m⟩
  | call label run => exact m.attach h f _
  | attach p actions args => exact m.attachActions h f p actions args
  | direct failing => exact ⟨rfl, m.setDirect h _ _⟩
  | action actions args =>
    have hnegated : y.isNegated f.query = x.isNegated f.query := by
      rw [isNegated, isNegated, m.root_eq h, m.query?_eq]
    simp only [Engine.junctionOp, hnegated]
    exact m.attachActions h f _ actions args
  | _ => exact ⟨rfl, m⟩

/-- An operation of a chain leads to the same facet and tasks on both sides. -/
theorem chainOp (m : Mirrors exact b b' x y) (f : Facet) (op : ChainOp Step) :
    (y.chainOp f op).2 = (x.chainOp f op).2 ∧
      Mirrors exact b b' (x.chainOp f op).1 (y.chainOp f op).1 := by
  unfold Engine.chainOp
  split
  · exact ⟨rfl, m.keepRule f _⟩
  · exact ⟨rfl, m⟩
  · exact ⟨rfl, m.updateRoot h f.query _⟩
  · exact ⟨rfl, m.updateRoot h f.query _⟩
  · split
    · obtain ⟨hfacet, hm⟩ := m.conditionOp f op
      simp only [hfacet]
      exact ⟨trivial, hm⟩
    · exact m.junctionOp h f op

/-- A chain goes on in the same way on both sides. -/
theorem chain (m : Mirrors exact b b' x y) (f : Facet) (ops : List (ChainOp Step))
    (name : Option String) : Mirrors exact b b' (x.chain f ops name) (y.chain f ops name) := by
  have hsummary : ∀ {x y : Engine}, Mirrors exact b b' x y →
      y.facetSummary f = x.facetSummary f := fun m => by
    simp only [facetSummary, m.summary_eq h]
  cases ops with
  | cons op ops =>
    obtain ⟨hresult, hm⟩ := m.chainOp h f op
    simp only [Engine.chain, hresult]
    exact hm.schedule _
  | nil =>
    cases name with
    | none =>
      simp only [Engine.chain, hsummary m]
      exact m.reply _
    | some name =>
      have hkept := m.keepRule f name
      simp only [Engine.chain, hsummary hkept]
      exact hkept.reply _

/-- A callback schedules the same on both sides. -/
theorem deliver (m : Mirrors exact b b' x y) (q : QueryId) (i : Nat) (state skip : Bool) :
    Mirrors exact b b' (x.deliver q i state skip) (y.deliver q i state skip) := by
  simp only [Engine.deliver, m.query?_eq]
  split
  · exact m
  · exact (m.record _).schedule _
  · next host p actions args spent _ =>
    have hmark : Mirrors exact b b' (if p = .once ∧ state then
          x.updateQuery q fun s =>
            { s with callbacks := s.callbacks.set i (.attached host p actions args true) }
        else x)
        (if p = .once ∧ state then
          y.updateQuery q fun s =>
            { s with callbacks := s.callbacks.set i (.attached host p actions args true) }
        else y) := by
      split
      · exact m.updateQuery _ _
      · exact m
    generalize (if p = .once ∧ state then _ else x) = x₁ at hmark ⊢
    generalize (if p = .once ∧ state then _ else y) = y₁ at hmark ⊢
    split
    · exact m
    · split
      · rw [hmark.hostInUse_eq h]
        split
        · exact hmark.schedule _
        · exact hmark
      · exact hmark

/-- An operation on a named query answers the same on both sides, up to what is compared. -/
theorem queryOp (m : Mirrors exact b b' x y) (q : QueryId) (op : QueryOp Step) :
    Mirrors exact b b' (x.queryOp q op) (y.queryOp q op) := by
  cases op with
  | condition node =>
    obtain ⟨hleaf, hnode⟩ := m.nodeLeaf node
    simp only [Engine.queryOp, hleaf]
    exact (hnode.addCondition q _ _).schedule _
  | or => exact (m.updateQuery _ _).schedule _
  | trigger => exact m.schedule _
  | pause => exact (m.updateRoot h q _).schedule _
  | resume => exact (m.updateRoot h q _).schedule _
  | negate failing => exact (m.setDirect h q failing).schedule _
  | callback label run =>
    obtain ⟨htask, hadded⟩ := m.addCallback h q (.script label run)
    simp only [Engine.queryOp, htask, hadded.root_eq h]
    exact hadded.schedule _
  | evaluate =>
    simp only [Engine.queryOp, observe, m.evaluate_eq h]
    exact (m.record _).reply _
  | same other =>
    obtain ⟨hnamed, hother⟩ := m.named other
    simp only [Engine.queryOp, hnamed, hother.root_eq h]
    exact hother.reply _
  | parent other =>
    obtain ⟨hnamed, hother⟩ := m.named other
    simp only [Engine.queryOp, hnamed, hother.parent?_eq h]
    exact hother.reply _
  | listen node label =>
    obtain ⟨hleaf, hnode⟩ := m.nodeLeaf node
    rcases hx : x.nodeLeaf node with ⟨⟨leaf, observable⟩, x₁⟩
    rcases hy : y.nodeLeaf node with ⟨found, y₁⟩
    rw [hx, hy] at hleaf hnode
    obtain rfl : found = (leaf, observable) := hleaf
    simp only [Engine.queryOp, hx, hy]
    cases leaf with
    | flag ref logged =>
      cases observable with
      | true => exact (hnode.updateFlag ref _).reply _
      | false => exact hnode.reply _
    | _ => exact hnode.reply _
  | and => exact m.schedule _
  | inspect => exact m.schedule _
  | new => exact m
  | childOf parent => exact m
  | drop => exact m

theorem queryStep (m : Mirrors exact b b' x y) (name : String) (op : QueryOp Step) :
    Mirrors exact b b' (x.queryStep name op) (y.queryStep name op) := by
  unfold Engine.queryStep
  split
  · simp only [m.addQuery_fst]
    exact ((m.addQuery none).nameQuery name _).reply _
  · next parent =>
    obtain ⟨hnamed, hm⟩ := m.named parent
    simp only [hnamed, hm.addQuery_fst]
    exact ((hm.addQuery _).nameQuery name _).reply _
  · simp only [m.session_eq]
    exact (m.updateSession _).reply _
  · obtain ⟨hnamed, hm⟩ := m.named name
    simp only [hnamed]
    exact (hm.schedule _).queryOp h _ op

/-- A step does the same on both sides. -/
theorem performStep (m : Mirrors exact b b' x y) (step : Step) :
    Mirrors exact b b' (x.performStep step) (y.performStep step) := by
  unfold Engine.performStep
  split
  · exact m.queryStep h _ _
  · simp only [m.current, m.flag_eq]
    exact (m.updateFlag _ _).schedule _
  · simp only [m.session_eq]
    exact (m.updateSession _).reply _
  · have hdrop := m.updateSession fun s => { s with rules := [], host := none }
    simp only [m.session_eq]
    cases x.session.host with
    | none => exact hdrop.reply _
    | some i =>
      simp only [hdrop.hostInUse_eq h]
      exact hdrop.reply _
  · rw [m.session_eq]
    cases x.session.host with
    | none => exact m.reply _
    | some i =>
      obtain ⟨hx, hy⟩ | ⟨s, t, hx, hy, hst⟩ := m.host?_cases i
      · simp only [Option.bind_some, hx, hy]
        exact m.reply _
      · simp only [Option.bind_some, hx, hy]
        exact (m.schedule _).hostStep i hst step

/-- One task keeps it. -/
theorem perform (m : Mirrors exact b b' x y) (t : Task) :
    Mirrors exact b b' (x.perform t) (y.perform t) := by
  cases t with
  | step s => exact m.performStep h s
  | ran step => exact m.recordAs fun he => by rw [m.answer he]
  | answer a => exact m.reply a
  | summarize q =>
    simp only [Engine.perform, m.summary_eq h]
    exact m.reply _
  | hold hosts queries => exact m
  | chain f ops name => exact m.chain h f ops name
  | trigger q => exact m.trigger h q
  | round q state skip pending =>
    cases pending with
    | nil => exact m
    | cons i rest => exact m.schedule _
  | deliver q i state skip => exact m.deliver h q i state skip
  | dispatch i tokens args negate skip report answers =>
    cases tokens with
    | nil =>
      cases answers with
      | true => exact m.reply _
      | false => exact m
    | cons token tokens =>
      exact m.dispatch i args negate skip report (.dispatch i tokens args negate skip · answers)
        token
  | perform i action args skip =>
    have hclasses : (y.host? i).map (·.config.classes) = (x.host? i).map (·.config.classes) := by
      obtain ⟨hx, hy⟩ | ⟨s, t, hx, hy, hst⟩ := m.host?_cases i
      · rw [hx, hy]
      · rw [hx, hy, Option.map_some, Option.map_some, hst.config]
    simp only [Engine.perform, hclasses]
    exact m.schedule _
  | effect i field effect s skip answers => exact m.applyEffect i field effect s skip answers
  | write i field v automatic => exact m.write i field v automatic
  | log event => exact m.record _
  | notify i changed automatic => exact m.notify i changed automatic
  | inform listeners field v automatic =>
    cases listeners with
    | nil => exact m
    | cons l ls => exact (m.schedule _).inform field v automatic l
  | flagSet listeners =>
    cases listeners with
    | nil => exact m
    | cons l ls =>
      cases l with
      | log label => exact (m.record _).schedule _
      | query q =>
        simp only [Engine.perform, m.queryInUse_eq h]
        split
        · exact m.schedule _
        · exact m.schedule _

/-! ### Runs -/

/-- As long as there is work on top of the tasks at the bottom, what runs is the same. -/
theorem run (m : Mirrors exact b b' x y) {n : Nat}
    (habove : ∀ j < n, b.length < (x.run j).agenda.length) :
    Mirrors exact b b' (x.run n) (y.run n) := by
  induction n with
  | zero => exact m
  | succ n ih =>
    have hn := ih fun j hj => habove j (by omega)
    obtain ⟨top, hx, hy⟩ := hn.agenda
    have hlength := habove n (by omega)
    rw [run_succ', run_succ']
    cases top with
    | nil => simp [hx] at hlength
    | cons t top =>
      rw [step_of_agenda hx, step_of_agenda hy]
      refine perform h ?_ t
      exact { hn with agenda := ⟨top, by simp [taken, hx], by simp [taken, hy]⟩ }

end InUse

end Mirrors

end Engine

end FormRules
