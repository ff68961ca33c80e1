import FormRules.Proofs.Defaults
import FormRules.Proofs.Frame
import FormRules.Session

/-!
# Rules on values

A plain script builds rules out of conditions on values, writes values, applies effects and
dispatches actions, all of which report what they change; callbacks and actions of its own are
plain scripts again. `Engine.IsPlain` is what holds of an engine that runs such scripts on
one host: every task left to do is plain, and the queries are wired up. A query is wired
(`Query.IsWired`) if its brackets and its parent know each other, a root is a rule of the host, and
it listens to the fields of each of its conditions. Every task preserves this
(`Engine.IsPlain.perform`), so it holds along every run.
-/

namespace FormRules

/-! ## Plain scripts -/

mutual

/-- A step that builds a rule, writes, applies an effect or dispatches actions, and reports what it
changes. -/
inductive Step.IsPlain (table : EvaluationTable) : Step → Prop
  | rule {chain : List (ChainOp Step)} {name source : Option String}
      (h : ∀ op ∈ chain, ChainOp.IsPlain table op) : Step.IsPlain table (.rule chain name source)
  | write (field : String) (v : Value) (automatic : Bool) :
      Step.IsPlain table (.write field v automatic)
  | effect {field : String} {e : Effect} {s : Switch} {skip : Bool} (h : e ≠ .optionVisible) :
      Step.IsPlain table (.effect field e s skip)
  | dispatch {actions : List (Token Step)} {args : Args} {negate skip : Bool}
      (h : ∀ t ∈ actions, Token.IsPlain table t) :
      Step.IsPlain table (.dispatch actions args negate skip)

/-- An operation of a chain that neither pauses nor resumes, and adds no conditions but those on the
value of a named field. -/
inductive ChainOp.IsPlain (table : EvaluationTable) : ChainOp Step → Prop
  | save (name : String) : ChainOp.IsPlain table (.save name)
  | trigger : ChainOp.IsPlain table .trigger
  | when {v : Value} {field : Option String}
      (hv : (table.lookup v).pattern ∈ Evaluation.valuePatterns)
      (hfield : (field.getD formAlias).toList.all Text.isBlank = false) :
      ChainOp.IsPlain table (.when (.value v) field)
  | on (field : String) : ChainOp.IsPlain table (.on field)
  | openBracket : ChainOp.IsPlain table .openBracket
  | closeBracket : ChainOp.IsPlain table .closeBracket
  | evaluate : ChainOp.IsPlain table .evaluate
  | and : ChainOp.IsPlain table .and
  | or : ChainOp.IsPlain table .or
  | direct (failing : Bool) : ChainOp.IsPlain table (.direct failing)
  | call {label : String} {run : List Step} (h : ∀ s ∈ run, Step.IsPlain table s) :
      ChainOp.IsPlain table (.call label run)
  | attach {p : Polarity} {actions : List (Token Step)} {args : Args}
      (h : ∀ t ∈ actions, Token.IsPlain table t) : ChainOp.IsPlain table (.attach p actions args)
  | action {actions : List (Token Step)} {args : Args}
      (h : ∀ t ∈ actions, Token.IsPlain table t) : ChainOp.IsPlain table (.action actions args)

/-- The name of a built-in action that reports what it changes, or a plain script. -/
inductive Token.IsPlain (table : EvaluationTable) : Token Step → Prop
  | named {name : String} (h : name ∈ BuiltinAction.reportingNames) :
      Token.IsPlain table (.named name)
  | custom {label : String} {run : List Step} (h : ∀ s ∈ run, Step.IsPlain table s) :
      Token.IsPlain table (.custom label run)

end

/-- A plain script or a list of plain tokens. -/
def Callback.IsPlain (table : EvaluationTable) : Callback → Prop
  | .script _ run => ∀ s ∈ run, s.IsPlain table
  | .attached _ _ actions _ _ => ∀ t ∈ actions, t.IsPlain table

/-- A rule under construction on the first host, at one of `n` queries. -/
structure Facet.IsWithin (n : Nat) (f : Facet) : Prop where
  host : f.host = 0
  query : f.query < n

/-- A task of a plain script, where there are `n` queries. -/
def Task.IsPlain (table : EvaluationTable) (n : Nat) : Task → Prop
  | .step s => s.IsPlain table
  | .chain f ops _ => f.IsWithin n ∧ ∀ op ∈ ops, op.IsPlain table
  | .dispatch _ tokens _ _ _ _ _ => ∀ t ∈ tokens, t.IsPlain table
  | .perform _ action _ _ => ∃ a, action = .builtin a ∧ a.reports = true
  | .effect _ _ e _ _ _ => e ≠ .optionVisible
  | .inform listeners .. => ∀ l ∈ listeners, ∃ q, l = .query q
  | .summarize _ | .flagSet _ => False
  | _ => True

theorem Facet.IsWithin.mono {m n : Nat} {f : Facet} (h : f.IsWithin m) (hmn : m ≤ n) :
    f.IsWithin n := ⟨h.host, Nat.lt_of_lt_of_le h.query hmn⟩

/-- A plain task stays plain when queries are added. -/
theorem Task.IsPlain.mono {table : EvaluationTable} {m n : Nat} {t : Task} (h : t.IsPlain table m)
    (hmn : m ≤ n) : t.IsPlain table n := by
  cases t with
  | chain f ops name => exact ⟨Facet.IsWithin.mono h.1 hmn, h.2⟩
  | _ => exact h

/-- The tasks of a plain script are plain. -/
theorem Task.isPlain_ofScript {table : EvaluationTable} {n : Nat} {run : List Step}
    (h : ∀ s ∈ run, s.IsPlain table) : ∀ t ∈ ofScript run, t.IsPlain table n := by
  intro t ht
  obtain ⟨s, hs, ht⟩ := List.mem_flatMap.1 ht
  simp only [List.mem_cons, List.not_mem_nil, or_false] at ht
  rcases ht with rfl | rfl
  · exact h s hs
  · trivial

/-- An identifier stands for every field exactly if it is blank. -/
theorem Spec.isAll_read (text : String) :
    (Spec.read text).value.isAll = text.toList.all Text.isBlank := by
  rw [value_read, lenient, parse]
  cases text.toList.all Text.isBlank with
  | true => rfl
  | false => cases Selector.parseList text <;> rfl

/-! ## Wired queries -/

/-- A bracket has the query as parent; a condition on a value is one that the query listens to. -/
def Leaf.IsWired (table : EvaluationTable) (e : Engine) (q : QueryId) : Leaf → Prop
  | .query c => ∃ t, e.query? c = some t ∧ t.parent = some q
  | .check h spec c => h = 0 ∧ (table.lookup c).pattern ∈ Evaluation.valuePatterns ∧
      ∃ host, e.host? 0 = some host ∧
        ⟨some (host.form.pick spec.trigger), .query q⟩ ∈ host.subscriptions
  | _ => False

/-- A query that is not paused, belongs to its parent or else to the host, and listens to all that
its conditions depend on. -/
structure Query.IsWired (table : EvaluationTable) (e : Engine) (q : QueryId) (s : Query) :
    Prop where
  awake : s.paused = false
  clauses : s.clauses ≠ []
  parent : ∀ p, s.parent = some p → p < q ∧ ∃ t, e.query? p = some t ∧ t.mentions q = true
  root : s.parent = none → ∃ host, e.host? 0 = some host ∧ q ∈ host.queries
  leaves : ∀ leaf, (∃ clause ∈ s.clauses, leaf ∈ clause) → leaf.IsWired table e q
  callbacks : ∀ c ∈ s.callbacks, c.IsPlain table

/-- `e'` has what `e` has of what queries are wired to. -/
structure Engine.Carries (e e' : Engine) : Prop where
  query : ∀ q s, e.query? q = some s → ∃ t, e'.query? q = some t ∧ t.parent = s.parent ∧
    ∀ c, s.mentions c = true → t.mentions c = true
  host : ∀ host, e.host? 0 = some host → ∃ host', e'.host? 0 = some host' ∧ host.Grows host'

/-- A condition stays wired while its subscriptions and its bracket stay. -/
theorem Leaf.IsWired.carry {table : EvaluationTable} {e e' : Engine} {q : QueryId} {leaf : Leaf}
    (h : leaf.IsWired table e q) (he : e.Carries e') : leaf.IsWired table e' q := by
  cases leaf with
  | query c =>
    obtain ⟨t, ht, hparent⟩ := h
    obtain ⟨u, hu, hut, -⟩ := he.query c t ht
    exact ⟨u, hu, hut.trans hparent⟩
  | check i spec c =>
    obtain ⟨hi, hc, host, hhost, hsub⟩ := h
    obtain ⟨host', hhost', hgrows⟩ := he.host host hhost
    refine ⟨hi, hc, host', hhost', ?_⟩
    rw [hgrows.fields.pick_trigger]
    exact hgrows.subscriptions.subset hsub
  | flag ref logged => exact h
  | test i field spec t label => exact h

/-- A query stays wired while its subscriptions and its brackets stay. -/
theorem Query.IsWired.carry {table : EvaluationTable} {e e' : Engine} {q : QueryId} {s : Query}
    (h : s.IsWired table e q) (he : e.Carries e') : s.IsWired table e' q where
  awake := h.awake
  clauses := h.clauses
  parent := by
    intro p hp
    obtain ⟨hlt, t, ht, hmentions⟩ := h.parent p hp
    obtain ⟨u, hu, -, hut⟩ := he.query p t ht
    exact ⟨hlt, u, hu, hut q hmentions⟩
  root := by
    intro hp
    obtain ⟨host, hhost, hq⟩ := h.root hp
    obtain ⟨host', hhost', hgrows⟩ := he.host host hhost
    exact ⟨host', hhost', hgrows.queries.subset hq⟩
  leaves leaf hl := (h.leaves leaf hl).carry he
  callbacks := h.callbacks

namespace Engine

/-- The relations of operations on the state carry what queries are wired to. -/
theorem Extends.carries {e e' : Engine} (h : e.Extends e') : e.Carries e' where
  query q s hs := (h.query q s hs).imp fun _ ht => ⟨ht.1, ht.2.parent, ht.2.mentions⟩
  host := h.host 0

/-- Growth keeps subscriptions and brackets. -/
theorem Grows.carries {e e' : Engine} (h : e.Grows e') : e.Carries e' :=
  Extends.carries (Grows.extends h)

theorem Keeps.carries {e e' : Engine} (h : e.Keeps e') : e.Carries e' :=
  Grows.carries (Keeps.grows h)

end Engine

/-! ## Plain engines -/

/-- A host of a configuration that knows reporting actions only, and whose listeners are queries. -/
structure Host.IsPlain (config : Config Action) (host : Host) : Prop where
  actions : host.actions = config.actions
  evaluations : host.evaluations = config.evaluations
  resolver : host.resolver.IsReporting
  listeners : ∀ sub ∈ host.subscriptions, ∃ q, sub.listener = .query q

/-- A session on the first host. -/
structure Session.IsPlain (n : Nat) (s : Session) : Prop where
  host : s.host = some 0
  rules : ∀ r ∈ s.rules, r.2.IsWithin n

namespace Engine

/-- An engine that runs plain scripts on one host. -/
structure IsPlain (config : Config Action) (e : Engine) : Prop where
  current : e.current = 0
  session : ∃ s, e.sessions = [s] ∧ s.IsPlain e.queries.length
  host : ∃ host, e.hosts = [host] ∧ host.IsPlain config
  queries : ∀ q s, e.query? q = some s → s.IsWired config.evaluations e q
  agenda : ∀ t ∈ e.agenda, t.IsPlain config.evaluations e.queries.length

namespace IsPlain

variable {config : Config Action} {e : Engine}

/-- There is one host. -/
theorem host?_eq (h : e.IsPlain config) {i : HostId} {host : Host} (hi : e.host? i = some host) :
    i = 0 ∧ host.IsPlain config := by
  obtain ⟨x, hx, hplain⟩ := h.host
  rw [host?, hx] at hi
  cases i with
  | zero =>
    obtain rfl : x = host := Option.some.inj hi
    exact ⟨rfl, hplain⟩
  | succ i => simp at hi

/-! ### Operations on the state -/

/-- Changes of the agenda, the log and the answer. -/
theorem of_eq {e' : Engine} (h : e.IsPlain config) (hq : e'.queries = e.queries)
    (hh : e'.hosts = e.hosts) (hs : e'.sessions = e.sessions) (hc : e'.current = e.current)
    (ha : ∀ t ∈ e'.agenda, t.IsPlain config.evaluations e.queries.length) :
    e'.IsPlain config where
  current := hc.trans h.current
  session := by rw [hs, hq]; exact h.session
  host := hh ▸ h.host
  queries q s hqs := by
    have hcarries : e.Carries e' :=
      ⟨fun q s hs => ⟨s, by rwa [query?, hq], rfl, fun _ hc => hc⟩,
        fun host hhost => ⟨host, by rwa [host?, hh], .refl host⟩⟩
    rw [query?, hq] at hqs
    exact (h.queries q s hqs).carry hcarries
  agenda := by rw [hq]; exact ha

theorem record (h : e.IsPlain config) (events : List Event) : (e.record events).IsPlain config :=
  h.of_eq rfl rfl rfl rfl h.agenda

theorem note (h : e.IsPlain config) (d : Diagnostic) : (e.note d).IsPlain config := h.record _

theorem observe {α : Type} (h : e.IsPlain config) (x : Traced α) :
    (e.observe x).2.IsPlain config := h.record _

theorem reply (h : e.IsPlain config) (a : Answer) : (e.reply a).IsPlain config :=
  h.of_eq rfl rfl rfl rfl h.agenda

/-- Plain tasks may be scheduled. -/
theorem schedule (h : e.IsPlain config) {tasks : List Task}
    (ht : ∀ t ∈ tasks, t.IsPlain config.evaluations e.queries.length) :
    (e.schedule tasks).IsPlain config := by
  refine h.of_eq rfl rfl rfl rfl fun t hmem => ?_
  rcases List.mem_append.1 hmem with hmem | hmem
  · exact ht t hmem
  · exact h.agenda t hmem

/-- A session may be changed to one that has names for queries that exist. -/
theorem updateSession (h : e.IsPlain config) {f : Session → Session}
    (hf : ∀ s : Session, s.IsPlain e.queries.length → (f s).IsPlain e.queries.length) :
    (e.updateSession f).IsPlain config where
  current := h.current
  session := by
    obtain ⟨s, hs, hplain⟩ := h.session
    exact ⟨f s, by simp [Engine.updateSession, hs, h.current], hf s hplain⟩
  host := h.host
  queries q s hq := (h.queries q s hq).carry
    ⟨fun _ s hs => ⟨s, hs, rfl, fun _ hc => hc⟩, fun host hhost => ⟨host, hhost, .refl host⟩⟩
  agenda := h.agenda

/-- The host may grow to one that is plain. -/
theorem updateHost (h : e.IsPlain config) (i : HostId) {f : Host → Host}
    (hf : ∀ host, e.host? 0 = some host → host.IsPlain config →
      host.Grows (f host) ∧ (f host).IsPlain config) :
    (e.updateHost i f).IsPlain config := by
  obtain ⟨host, hhost, hplain⟩ := h.host
  have hhost? : e.host? 0 = some host := by simp [host?, hhost]
  obtain ⟨hgrows, hplain'⟩ := hf host hhost? hplain
  refine ⟨h.current, h.session, ?_, fun q s hq => (h.queries q s hq).carry ⟨?_, ?_⟩, h.agenda⟩
  · rcases i with _ | i
    · exact ⟨f host, by simp [Engine.updateHost, hhost], hplain'⟩
    · exact ⟨host, by simp [Engine.updateHost, hhost], hplain⟩
  · exact fun _ s hs => ⟨s, hs, rfl, fun _ hc => hc⟩
  · intro x hx
    obtain rfl : host = x := Option.some.inj (hhost?.symm.trans hx)
    rw [host?_updateHost]
    split
    · exact ⟨f host, by rw [hx]; rfl, hgrows⟩
    · exact ⟨host, hx, .refl host⟩

/-- Changes of queries that keep their parents and conditions, where the query listens to what is
new. -/
theorem updateQuery (h : e.IsPlain config) (i : QueryId) {f : Query → Query}
    (hf : ∀ s, e.query? i = some s → s.IsWired config.evaluations e i →
      (f s).parent = s.parent ∧ (∀ c, s.mentions c = true → (f s).mentions c = true) ∧
        (f s).IsWired config.evaluations e i) : (e.updateQuery i f).IsPlain config := by
  have hlength : (e.updateQuery i f).queries.length = e.queries.length := by
    simp [Engine.updateQuery]
  have hcarries : e.Carries (e.updateQuery i f) := by
    refine ⟨fun q s hs => ?_, fun host hhost => ⟨host, hhost, .refl host⟩⟩
    rw [query?_updateQuery]
    split
    · next hi =>
      subst hi
      obtain ⟨hparent, hmentions, -⟩ := hf s hs (h.queries i s hs)
      exact ⟨f s, by rw [hs]; rfl, hparent, hmentions⟩
    · exact ⟨s, hs, rfl, fun _ hc => hc⟩
  refine ⟨h.current, hlength ▸ h.session, h.host, fun q s hq => ?_, hlength ▸ h.agenda⟩
  rw [query?_updateQuery] at hq
  split at hq
  · next hi =>
    subst hi
    obtain ⟨s, hs, rfl⟩ := Option.map_eq_some_iff.1 hq
    obtain ⟨-, -, hwired⟩ := hf s hs (h.queries i s hs)
    exact hwired.carry hcarries
  · exact (h.queries q s hq).carry hcarries

/-- Changes of anything but the parents and the conditions of queries. -/
theorem updateMarks (h : e.IsPlain config) (i : QueryId) {f : Query → Query}
    (hf : ∀ s, (f s).parent = s.parent ∧ (f s).clauses = s.clauses ∧ (f s).paused = s.paused)
    (hcallbacks : ∀ s, e.query? i = some s → (∀ c ∈ s.callbacks, c.IsPlain config.evaluations) →
      ∀ c ∈ (f s).callbacks, c.IsPlain config.evaluations) : (e.updateQuery i f).IsPlain config := by
  refine h.updateQuery i fun s hs hwired => ?_
  obtain ⟨hparent, hclauses, hpaused⟩ := hf s
  refine ⟨hparent, fun c hc => by simpa [Query.mentions, hclauses] using hc, ?_⟩
  exact ⟨hpaused.trans hwired.awake, hclauses ▸ hwired.clauses,
    fun p hp => hwired.parent p (hparent ▸ hp), fun hp => hwired.root (hparent ▸ hp),
    fun leaf hl => hwired.leaves leaf (hclauses ▸ hl), hcallbacks s hs hwired.callbacks⟩

/-- A new root that the host lists. -/
theorem addRoot (h : e.IsPlain config)
    (hlisted : ∃ host, e.host? 0 = some host ∧ e.queries.length ∈ host.queries) :
    (e.addQuery none).2.IsPlain config := by
  have hlength : (e.addQuery none).2.queries.length = e.queries.length + 1 := by
    simp [addQuery]
  have hcarries : e.Carries (e.addQuery none).2 :=
    Keeps.carries (Moves.addQuery (Keeps.refl e) none fun _ => rfl)
  refine ⟨h.current, ?_, h.host, fun q s hq => ?_, ?_⟩
  · obtain ⟨s, hs, hplain⟩ := h.session
    exact ⟨s, hs, hplain.host, fun r hr => (hplain.rules r hr).mono (by omega)⟩
  · rw [query?_addQuery] at hq
    split at hq
    · next hi =>
      subst hi
      obtain rfl := Option.some.inj hq
      exact ⟨rfl, by simp, by simp, fun _ => hlisted, by simp, by simp⟩
    · exact (h.queries q s hq).carry hcarries
  · intro t ht
    exact (h.agenda t ht).mono (by omega)

/-- A new bracket of a query. -/
theorem addBracket (h : e.IsPlain config) {q : QueryId} (hq : q < e.queries.length) :
    ((e.addQuery (some q)).2.addCondition q (.query e.queries.length) false).IsPlain config := by
  obtain ⟨s, hs⟩ : ∃ s, e.query? q = some s := ⟨_, List.getElem?_eq_getElem hq⟩
  have hne : q ≠ e.queries.length := Nat.ne_of_lt hq
  have hquery : ∀ i, ((e.addQuery (some q)).2.addCondition q (.query e.queries.length) false).query? i =
      if i = e.queries.length then some { parent := some q }
      else if q = i then some (s.addLeaf (.query e.queries.length)) else e.query? i := by
    intro i
    change ((e.addQuery (some q)).2.updateQuery q (·.addLeaf _)).query? i = _
    rw [query?_updateQuery, query?_addQuery]
    by_cases hi : i = e.queries.length
    · simp [hi, hne]
    · by_cases hqi : q = i
      · subst hqi
        simp [hne, hs]
      · simp [hi, hqi]
  have hlength : ((e.addQuery (some q)).2.addCondition q (.query e.queries.length) false).queries.length =
      e.queries.length + 1 := by simp [addCondition, observeLeaf, Engine.updateQuery, addQuery]
  have hcarries := Grows.carries (Grows.addCondition (Moves.addQuery (Grows.refl e) (some q) fun _ => rfl) q
    (.query e.queries.length) false)
  refine ⟨h.current, ?_, h.host, fun i t ht => ?_, ?_⟩
  · obtain ⟨session, hsession, hplain⟩ := h.session
    exact ⟨session, hsession, hplain.host, fun r hr => (hplain.rules r hr).mono (by omega)⟩
  · rw [hquery] at ht
    split at ht
    · next hi =>
      obtain rfl := Option.some.inj ht
      refine ⟨rfl, by simp, fun p hp => ?_, by simp, by simp, by simp⟩
      obtain rfl : q = p := Option.some.inj hp
      refine ⟨hi ▸ hq, s.addLeaf (.query e.queries.length), by rw [hquery, if_neg hne, if_pos rfl], ?_⟩
      exact Query.mentions_iff.2 (Query.exists_mem_addLeaf.2
        (Or.inr ⟨(h.queries q s hs).clauses, by rw [hi]⟩))
    · split at ht
      · next hqi =>
        subst hqi
        obtain rfl := Option.some.inj ht
        have hwired := (h.queries q s hs).carry hcarries
        refine ⟨hwired.awake, ?_, hwired.parent, hwired.root, fun leaf hl => ?_, hwired.callbacks⟩
        · simpa [Query.addLeaf] using hwired.clauses
        · rcases Query.exists_mem_addLeaf.1 hl with hl | ⟨-, rfl⟩
          · exact hwired.leaves leaf hl
          · exact ⟨{ parent := some q }, by rw [hquery, if_pos rfl], rfl⟩
      · exact (h.queries i t ht).carry hcarries
  · intro t ht
    exact (h.agenda t ht).mono (by omega)

/-! ### Trees -/

/-- A parent is older than its brackets. -/
theorem parent?_lt (h : e.IsPlain config) {q p : QueryId} (hp : e.parent? q = some p) : p < q := by
  obtain ⟨hparent, -⟩ := Option.filter_eq_some_iff.1 hp
  obtain ⟨s, hs, hparent⟩ := Option.bind_eq_some_iff.1 hparent
  exact ((h.queries q s hs).parent p hparent).1

/-- Parents are older than their children, and so are roots. -/
theorem root_le (h : e.IsPlain config) (q : QueryId) : e.root q ≤ q := by
  have hwithin : ∀ n q, e.rootWithin n q ≤ q := by
    intro n
    induction n with
    | zero => exact fun q => Nat.le_refl q
    | succ n ih =>
      intro q
      simp only [rootWithin]
      split
      · next p hp => exact Nat.le_trans (ih p) (Nat.le_of_lt (h.parent?_lt hp))
      · exact Nat.le_refl q
  exact hwithin _ q

theorem isWithin_of_le {f : Facet} {n q : Nat} {kind : FacetKind} (hf : f.IsWithin n)
    (hq : q ≤ f.query) : Facet.IsWithin n ⟨kind, f.host, q⟩ :=
  ⟨hf.host, Nat.lt_of_le_of_lt hq hf.query⟩

/-! ### Queries -/

theorem setDirect (h : e.IsPlain config) (q : QueryId) (failing : Bool) :
    (e.setDirect q failing).IsPlain config :=
  h.updateMarks _ (fun _ => ⟨rfl, rfl, rfl⟩) fun _ _ hc => hc

/-- A trigger keeps an engine plain. -/
theorem trigger (h : e.IsPlain config) (q : QueryId) : (e.trigger q).IsPlain config := by
  unfold Engine.trigger
  dsimp only
  split
  · exact h.note _
  · split
    · exact h.observe _
    · have hlast : ∀ last, ((e.observe (e.evaluate (e.root q))).2.updateQuery (e.root q) fun s =>
          { s with last }).IsPlain config := fun _ =>
        IsPlain.updateMarks (h.observe _) _ (fun _ => ⟨rfl, rfl, rfl⟩) fun _ _ hc => hc
      exact IsPlain.schedule ((hlast _).note _) (by simp [Task.IsPlain])

/-- A plain callback may be added, and its first task is plain. -/
theorem addCallback (h : e.IsPlain config) (q : QueryId) {c : Callback}
    (hc : c.IsPlain config.evaluations) : (e.addCallback q c).2.IsPlain config ∧
      (e.addCallback q c).1.IsPlain config.evaluations (e.addCallback q c).2.queries.length := by
  have hadd : (e.updateQuery (e.root q) fun s =>
      { s with callbacks := s.callbacks ++ [c] }).IsPlain config := by
    refine h.updateMarks _ (fun _ => ⟨rfl, rfl, rfl⟩) fun s _ hs x hx => ?_
    rcases List.mem_append.1 hx with hx | hx
    · exact hs x hx
    · exact List.mem_singleton.1 hx ▸ hc
  unfold Engine.addCallback
  dsimp only
  split
  · exact ⟨hadd, trivial⟩
  · exact ⟨hadd.observe _, trivial⟩

/-- Every callback is plain. -/
theorem mem_callbacks (h : e.IsPlain config) {q : QueryId} {i : Nat} {c : Callback}
    (hc : ((e.query? q).getD {}).callbacks[i]? = some c) : c.IsPlain config.evaluations := by
  cases hs : e.query? q with
  | none => simp [hs] at hc
  | some s => exact (h.queries q s hs).callbacks c (List.mem_of_getElem? (by simpa [hs] using hc))

/-- A plain callback schedules plain tasks. -/
theorem deliver (h : e.IsPlain config) (q : QueryId) (i : Nat) (state skip : Bool) :
    (e.deliver q i state skip).IsPlain config := by
  unfold Engine.deliver
  split
  · exact h
  · next label run hc =>
    exact (h.record _).schedule (Task.isPlain_ofScript (h.mem_callbacks hc))
  · next host p actions args spent hc =>
    have hactions : ∀ t ∈ actions, t.IsPlain config.evaluations := h.mem_callbacks hc
    have hmark : IsPlain config (if p = .once ∧ state then
        e.updateQuery q fun s =>
          { s with callbacks := s.callbacks.set i (.attached host p actions args true) }
        else e) := by
      split
      · refine h.updateMarks _ (fun _ => ⟨rfl, rfl, rfl⟩) fun s _ hs x hx => ?_
        rcases List.mem_or_eq_of_mem_set hx with hx | rfl
        · exact hs x hx
        · exact hactions
      · exact h
    dsimp only
    generalize (if p = .once ∧ state then _ else e) = marked at hmark ⊢
    split
    · exact h
    · split
      · split
        · exact hmark.schedule (by simpa [Task.IsPlain] using hactions)
        · exact hmark
      · exact hmark

/-! ### Hosts -/

/-- A query may listen to more fields. -/
theorem subscribe (h : e.IsPlain config) (i : HostId) (spec : Spec) (q : QueryId) :
    (e.subscribe i spec (.query q)).IsPlain config := by
  unfold Engine.subscribe
  split
  · exact h
  · refine IsPlain.updateHost (h.observe _) i fun host _ hhost => ?_
    refine ⟨⟨.refl _, List.prefix_append _ _, List.prefix_rfl⟩, hhost.actions, hhost.evaluations,
      hhost.resolver, fun sub hsub => ?_⟩
    rcases List.mem_append.1 hsub with hsub | hsub
    · exact hhost.listeners sub hsub
    · exact ⟨q, by rw [List.mem_singleton.1 hsub]⟩

theorem listenTo (h : e.IsPlain config) (f : Facet) (spec : Spec) :
    (e.listenTo f spec).IsPlain config := by
  unfold Engine.listenTo
  split
  · exact h
  · exact h.subscribe _ _ _

/-- An effect keeps an engine plain, since it notifies of what it changes. -/
theorem applyEffect (h : e.IsPlain config) (i : HostId) (field : String) (effect : Effect)
    (s : Switch) (skip answers : Bool) :
    (e.applyEffect i field effect s skip answers).IsPlain config := by
  unfold Engine.applyEffect
  split
  · exact h
  · next host hhost =>
    obtain ⟨rfl, -⟩ := h.host?_eq hhost
    have hform : ((e.observe (host.fields field false)).2.updateHost 0 fun x =>
        { x with form := (host.form.apply (host.fields field false).value effect s).1 }).IsPlain
          config := by
      refine IsPlain.updateHost (h.observe _) 0 fun x hx hplain => ?_
      obtain rfl : host = x := Option.some.inj (hhost.symm.trans hx)
      exact ⟨⟨Form.sameIds_apply _ _ _ _, List.prefix_rfl, List.prefix_rfl⟩, hplain.actions,
        hplain.evaluations, hplain.resolver, hplain.listeners⟩
    dsimp only
    refine IsPlain.schedule (e := if host.watched then _ else _) ?_
      (by cases answers <;> simp [Task.IsPlain])
    split
    · exact hform.record _
    · exact hform

/-- A write keeps an engine plain, since it notifies of what it changes. -/
theorem write (h : e.IsPlain config) (i : HostId) (field : String) (v : Value) (automatic : Bool) :
    (e.write i field v automatic).IsPlain config := by
  unfold Engine.write
  split
  · exact h
  · next host hhost =>
    obtain ⟨rfl, -⟩ := h.host?_eq hhost
    have hform : ((e.observe (host.fields field false)).2.updateHost 0 fun x =>
        { x with form := (host.form.write (host.fields field false).value v).1 }).IsPlain
          config := by
      refine IsPlain.updateHost (h.observe _) 0 fun x hx hplain => ?_
      obtain rfl : host = x := Option.some.inj (hhost.symm.trans hx)
      exact ⟨⟨(Form.reports_write _ _ _).toSameIds, List.prefix_rfl, List.prefix_rfl⟩,
        hplain.actions, hplain.evaluations, hplain.resolver, hplain.listeners⟩
    dsimp only
    refine IsPlain.schedule (e := if host.watched then _ else _) ?_ (by simp [Task.IsPlain])
    split
    · exact hform.record _
    · exact hform

/-- A notification keeps an engine plain. -/
theorem notify (h : e.IsPlain config) (i : HostId) (changed : List Handle) (automatic : Bool) :
    (e.notify i changed automatic).IsPlain config := by
  unfold Engine.notify
  split
  · next f rest host hhost =>
    obtain ⟨rfl, hplain⟩ := h.host?_eq hhost
    have hlisteners : ∀ l ∈ (host.subscriptions.filter (·.covers f)).map Subscription.listener,
        ∃ q, l = .query q := by
      intro l hl
      obtain ⟨sub, hsub, rfl⟩ := List.mem_map.1 hl
      exact hplain.listeners sub (List.mem_of_mem_filter hsub)
    have hchanged : IsPlain config (if automatic then e else
        e.updateHost 0 fun host => { host with changed := true }) := by
      split
      · exact h
      · exact h.updateHost 0 fun host _ hhost =>
          ⟨⟨.refl _, List.prefix_rfl, List.prefix_rfl⟩, hhost.actions, hhost.evaluations,
            hhost.resolver, hhost.listeners⟩
    refine IsPlain.schedule (hchanged.note _) fun t ht => ?_
    simp only [List.mem_cons, List.not_mem_nil, or_false] at ht
    rcases ht with rfl | rfl
    · exact hlisteners
    · trivial
  · exact h

/-! ### Actions -/

/-- The opposite of a reporting name reports. -/
theorem negative (h : e.IsPlain config) (hconfig : (Draft.withDefaults .builtin).build = .ok config)
    (i : HostId) {name : String} (hname : name ∈ BuiltinAction.reportingNames) :
    (e.negative i name).2.IsPlain config ∧
      ∀ b, (e.negative i name).1 = some b → b ∈ BuiltinAction.reportingNames := by
  unfold Engine.negative
  split
  · exact ⟨h, fun b hb => by simp at hb⟩
  · next host hhost =>
    obtain ⟨rfl, hplain⟩ := h.host?_eq hhost
    obtain ⟨hanswer, hresolver⟩ := Resolver.reporting_resolve hplain.resolver hconfig hname
    rw [← hplain.actions] at hanswer hresolver
    refine ⟨IsPlain.record (h.updateHost 0 fun x hx hx' => ?_) _, hanswer⟩
    exact ⟨⟨.refl _, List.prefix_rfl, List.prefix_rfl⟩, hx'.actions, hx'.evaluations, hresolver,
      hx'.listeners⟩

/-- An action that reports what it changes has plain tasks. -/
theorem invoke (h : e.IsPlain config) (hconfig : (Draft.withDefaults .builtin).build = .ok config)
    (i : HostId) {name : String} (hname : name ∈ BuiltinAction.reportingNames) (args : Args)
    (skip : Bool) (report : Report) {next : Report → Task}
    (hnext : ∀ r, (next r).IsPlain config.evaluations e.queries.length) :
    (e.invoke i name args skip report next).IsPlain config := by
  unfold Engine.invoke
  split
  · exact h
  · next host hhost =>
    obtain ⟨rfl, hplain⟩ := h.host?_eq hhost
    split
    · next action haction =>
      have hreports : ∃ a, action = .builtin a ∧ a.reports = true :=
        Config.reports_of_get? hconfig hname (hplain.actions ▸ haction)
      refine IsPlain.schedule (h.note _) fun t ht => ?_
      simp only [List.mem_cons, List.not_mem_nil, or_false] at ht
      rcases ht with rfl | rfl
      · exact hreports
      · exact hnext _
    · refine IsPlain.schedule (h.note _) fun t ht => ?_
      rw [List.mem_singleton.1 ht]
      exact hnext _

theorem length_negative (e : Engine) (i : HostId) (name : String) :
    (e.negative i name).2.queries.length = e.queries.length := by
  unfold Engine.negative
  split <;> rfl

/-- A plain token has plain tasks. -/
theorem dispatch (h : e.IsPlain config) (hconfig : (Draft.withDefaults .builtin).build = .ok config)
    (i : HostId) (args : Args) (negate skip : Bool) (report : Report) {next : Report → Task}
    {t : Token Step} (ht : t.IsPlain config.evaluations)
    (hnext : ∀ r, (next r).IsPlain config.evaluations e.queries.length) :
    (e.dispatch i args negate skip report next t).IsPlain config := by
  cases ht with
  | custom hrun =>
    simp only [Engine.dispatch]
    split
    · refine IsPlain.schedule (h.note _) fun t ht => ?_
      rw [List.mem_singleton.1 ht]
      exact hnext _
    · refine IsPlain.schedule (h.record _) fun t ht => ?_
      rcases List.mem_append.1 ht with ht | ht
      · exact Task.isPlain_ofScript hrun t ht
      · rw [List.mem_singleton.1 ht]
        exact hnext _
  | @named name hname =>
    simp only [Engine.dispatch]
    split
    · obtain ⟨hnegative, hanswer⟩ := h.negative hconfig i hname
      have hlength := length_negative e i name
      split
      · next b e' heq =>
        rw [heq] at hnegative hanswer hlength
        exact hnegative.invoke hconfig i (hanswer b rfl) args skip report fun r => hlength ▸ hnext r
      · next e' heq =>
        rw [heq] at hnegative hlength
        exact hnegative.schedule (by simpa [hlength] using hnext _)
    · exact h.invoke hconfig i hname args skip report hnext

/-- The tasks of an action that reports are plain. -/
theorem isPlain_actionTasks {table : EvaluationTable} {n : Nat} {action : Action}
    (h : ∃ a, action = .builtin a ∧ a.reports = true) (classes : ClassNames) (i : HostId)
    (args : Args) (skip : Bool) : ∀ t ∈ actionTasks classes i args skip action,
      t.IsPlain table n := by
  obtain ⟨a, rfl, ha⟩ := h
  intro t ht
  obtain ⟨operation, hoperation, rfl⟩ := List.mem_map.1 ht
  cases operation with
  | effect field effect s => exact BuiltinAction.ne_optionVisible_of_mem_plan ha hoperation
  | write field v => trivial
  | note d => trivial

/-! ### Chains -/

/-- A rule that exists may be kept. -/
theorem keepRule (h : e.IsPlain config) {f : Facet} (hf : f.IsWithin e.queries.length)
    (name : String) : (e.keepRule f name).IsPlain config := by
  have hname : (e.nameQuery name f.query).IsPlain config :=
    h.updateSession fun s hs => ⟨hs.host, hs.rules⟩
  refine hname.updateSession fun s hs => ⟨hs.host, fun r hr => ?_⟩
  rcases Roster.mem_put hr with rfl | hr
  · exact hf
  · exact hs.rules r hr

/-- A rule that listens to an identifier may have conditions on it. -/
theorem exists_subscribed (h : e.IsPlain config) {f : Facet} (hf : f.host = 0) {spec : Spec}
    (hspec : spec.isAll = false) : ∃ host, (e.listenTo f spec).host? 0 = some host ∧
      ⟨some (host.form.pick spec.trigger), .query f.query⟩ ∈ host.subscriptions := by
  obtain ⟨host, hhost, -⟩ := h.host
  have hhost? : e.host? f.host = some host := by simp [hf, host?, hhost]
  obtain ⟨host', hhost', hform, hsub⟩ := exists_listenTo hhost? hspec
  exact ⟨host', hf ▸ hhost', by rwa [hform]⟩

/-- A condition and the subscription for it may be added in either order. -/
theorem listenTo_addCondition (e : Engine) (f : Facet) (spec : Spec) (q : QueryId) (i : HostId)
    (s : Spec) (v : Value) : (e.addCondition q (.check i s v) false).listenTo f spec =
      (e.listenTo f spec).addCondition q (.check i s v) false := by
  unfold Engine.listenTo Engine.subscribe
  split
  · rfl
  · split
    · next hnone =>
      have hnone' : e.host? f.host = none := hnone
      rw [hnone']
    · next host hhost =>
      have hhost' : e.host? f.host = some host := hhost
      rw [hhost']
      rfl

/-- A condition on a value may be added to a query that then listens to its field. -/
theorem addCheck (h : e.IsPlain config) {f : Facet} (hf : f.IsWithin e.queries.length)
    {spec : Spec} (hspec : spec.isAll = false) {v : Value}
    (hv : (config.evaluations.lookup v).pattern ∈ Evaluation.valuePatterns) :
    ((e.addCondition f.query (.check f.host spec v) false).listenTo f spec).IsPlain config := by
  obtain ⟨host, hhost, hsub⟩ := h.exists_subscribed hf.host hspec
  rw [listenTo_addCondition]
  change ((e.listenTo f spec).updateQuery f.query (·.addLeaf _)).IsPlain config
  refine IsPlain.updateQuery (h.listenTo f spec) f.query fun s hs hwired => ⟨rfl, fun c hc => ?_, ?_⟩
  · exact Query.mentions_iff.2 (Query.exists_mem_addLeaf.2 (Or.inl (Query.mentions_iff.1 hc)))
  · refine ⟨hwired.awake, by simpa [Query.addLeaf] using hwired.clauses, hwired.parent, hwired.root,
      fun leaf hl => ?_, hwired.callbacks⟩
    rcases Query.exists_mem_addLeaf.1 hl with hl | ⟨-, rfl⟩
    · exact hwired.leaves leaf hl
    · exact ⟨hf.host, hv, host, hhost, hsub⟩

theorem addClause (h : e.IsPlain config) (q : QueryId) : (e.addClause q).IsPlain config := by
  refine h.updateQuery q fun s hs hwired => ⟨rfl, fun c hc => ?_, ?_⟩
  · obtain ⟨clause, hclause, hl⟩ := Query.mentions_iff.1 hc
    exact Query.mentions_iff.2 ⟨clause, List.mem_append_left _ hclause, hl⟩
  · refine ⟨hwired.awake, by simp, hwired.parent, hwired.root, fun leaf hl => ?_, hwired.callbacks⟩
    obtain ⟨clause, hclause, hl⟩ := hl
    rcases List.mem_append.1 hclause with hclause | hclause
    · exact hwired.leaves leaf ⟨clause, hclause, hl⟩
    · simp [List.mem_singleton.1 hclause] at hl

theorem length_subscribe (e : Engine) (i : HostId) (spec : Spec) (l : Listener) :
    (e.subscribe i spec l).queries.length = e.queries.length := by
  unfold Engine.subscribe
  split <;> rfl

theorem length_listenTo (e : Engine) (f : Facet) (spec : Spec) :
    (e.listenTo f spec).queries.length = e.queries.length := by
  unfold Engine.listenTo
  split
  · rfl
  · exact length_subscribe _ _ _ _

/-- A plain operation that takes conditions keeps an engine plain, and leads to a facet that exists.
-/
theorem conditionOp (h : e.IsPlain config) {f : Facet} (hf : f.IsWithin e.queries.length)
    {op : ChainOp Step} (hop : op.IsPlain config.evaluations) :
    (e.conditionOp f op).1.IsPlain config ∧
      (e.conditionOp f op).2.IsWithin (e.conditionOp f op).1.queries.length := by
  cases hop with
  | @when v field hv hfield =>
    have hspec : (Spec.read (field.getD formAlias)).value.isAll = false := by
      rw [Spec.isAll_read, hfield]
    refine ⟨IsPlain.addCheck (h.observe _) hf hspec hv, ?_⟩
    simp only [Engine.conditionOp, length_listenTo]
    refine ⟨hf.host, ?_⟩
    simpa [Engine.addCondition, observeLeaf, Engine.updateQuery, conditionLeaf, Engine.observe,
      Engine.record] using hf.query
  | on field =>
    refine ⟨IsPlain.listenTo (h.observe _) _ _, ?_⟩
    simp only [Engine.conditionOp, length_listenTo]
    exact ⟨hf.host, hf.query⟩
  | openBracket =>
    refine ⟨IsPlain.listenTo (h.addBracket hf.query) f .form, ?_⟩
    simp only [Engine.conditionOp, length_listenTo]
    exact ⟨hf.host, by simp [addQuery, Engine.addCondition, observeLeaf, Engine.updateQuery]⟩
  | _ => exact ⟨h, hf⟩

/-- A plain callback may be attached to a rule. -/
theorem attach (h : e.IsPlain config) {f : Facet} (hf : f.IsWithin e.queries.length)
    {c : Callback} (hc : c.IsPlain config.evaluations) : (e.attach f c).1.IsPlain config ∧
      (e.attach f c).2.1.IsWithin (e.attach f c).1.queries.length ∧
      ∀ t ∈ (e.attach f c).2.2, t.IsPlain config.evaluations (e.attach f c).1.queries.length := by
  have hlength : (e.attach f c).1.queries.length = e.queries.length := by
    unfold Engine.attach Engine.addCallback
    dsimp only
    split <;> simp [Engine.updateQuery, Engine.observe, Engine.record]
  obtain ⟨hplain, htask⟩ := h.addCallback (e.root f.query) hc
  refine ⟨hplain, ?_, fun t ht => ?_⟩
  · rw [hlength]
    exact isWithin_of_le hf (h.root_le _)
  · rw [List.mem_singleton.1 ht]
    exact htask

/-- A plain list of actions may be attached to a rule. -/
theorem attachActions (h : e.IsPlain config) {f : Facet} (hf : f.IsWithin e.queries.length)
    (p : Polarity) {actions : List (Token Step)} (args : Args)
    (hactions : ∀ t ∈ actions, t.IsPlain config.evaluations) :
    (e.attachActions f p actions args).1.IsPlain config ∧
      (e.attachActions f p actions args).2.1.IsWithin
        (e.attachActions f p actions args).1.queries.length ∧
      ∀ t ∈ (e.attachActions f p actions args).2.2,
        t.IsPlain config.evaluations (e.attachActions f p actions args).1.queries.length := by
  have hdirect : ∀ failing, f.IsWithin (e.setDirect f.query failing).queries.length := by
    intro failing
    simpa [Engine.setDirect, Engine.updateQuery] using hf
  unfold Engine.attachActions
  dsimp only
  split
  · exact IsPlain.attach (h.setDirect f.query false) (hdirect false) hactions
  · exact IsPlain.attach (h.setDirect f.query true) (hdirect true) hactions
  · exact IsPlain.attach h hf hactions

/-- A plain operation that takes junctions keeps an engine plain, and leads to a facet that exists.
-/
theorem junctionOp (h : e.IsPlain config) {f : Facet} (hf : f.IsWithin e.queries.length)
    {op : ChainOp Step} (hop : op.IsPlain config.evaluations) :
    (e.junctionOp f op).1.IsPlain config ∧
      (e.junctionOp f op).2.1.IsWithin (e.junctionOp f op).1.queries.length ∧
      ∀ t ∈ (e.junctionOp f op).2.2,
        t.IsPlain config.evaluations (e.junctionOp f op).1.queries.length := by
  have hnil : ∀ n, ∀ t ∈ ([] : List Task), t.IsPlain config.evaluations n := by simp
  cases hop with
  | evaluate => exact ⟨IsPlain.record (h.observe _) _, hf, hnil _⟩
  | and => exact ⟨h, ⟨hf.host, hf.query⟩, hnil _⟩
  | or =>
    refine ⟨h.addClause f.query, ?_, hnil _⟩
    simpa [Engine.junctionOp, Engine.addClause, Engine.updateQuery] using
      Facet.IsWithin.mk (f := { f with kind := .condition }) hf.host hf.query
  | closeBracket =>
    refine ⟨h, isWithin_of_le hf ?_, hnil _⟩
    cases hp : e.parent? f.query with
    | none => exact Nat.le_refl _
    | some p => exact Nat.le_of_lt (h.parent?_lt hp)
  | direct failing =>
    refine ⟨h.setDirect f.query failing, ?_, hnil _⟩
    simpa [Engine.junctionOp, Engine.setDirect, Engine.updateQuery] using hf
  | call hrun => exact h.attach hf hrun
  | attach hactions => exact h.attachActions hf _ _ hactions
  | action hactions => exact h.attachActions hf _ _ hactions
  | _ => exact ⟨h, hf, hnil _⟩

theorem chainOp (h : e.IsPlain config) {f : Facet} (hf : f.IsWithin e.queries.length)
    {op : ChainOp Step} (hop : op.IsPlain config.evaluations) :
    (e.chainOp f op).1.IsPlain config ∧
      (e.chainOp f op).2.1.IsWithin (e.chainOp f op).1.queries.length ∧
      ∀ t ∈ (e.chainOp f op).2.2,
        t.IsPlain config.evaluations (e.chainOp f op).1.queries.length := by
  unfold Engine.chainOp
  split
  · exact ⟨h.keepRule hf _, hf, by simp⟩
  · exact ⟨h, hf, by simp [Task.IsPlain]⟩
  · cases hop
  · cases hop
  · split
    · obtain ⟨hplain, hfacet⟩ := h.conditionOp hf hop
      exact ⟨hplain, hfacet, by simp⟩
    · exact h.junctionOp hf hop

/-- A plain chain keeps an engine plain. -/
theorem chain (h : e.IsPlain config) {f : Facet} (hf : f.IsWithin e.queries.length)
    {ops : List (ChainOp Step)} (hops : ∀ op ∈ ops, op.IsPlain config.evaluations)
    (name : Option String) : (e.chain f ops name).IsPlain config := by
  cases ops with
  | cons op ops =>
    obtain ⟨hplain, hfacet, htasks⟩ := h.chainOp hf (hops op List.mem_cons_self)
    refine hplain.schedule fun t ht => ?_
    rcases List.mem_append.1 ht with ht | ht
    · exact htasks t ht
    · rw [List.mem_singleton.1 ht]
      exact ⟨hfacet, fun op hop => hops op (List.mem_cons_of_mem _ hop)⟩
  | nil =>
    cases name with
    | none => exact h.reply _
    | some name => exact IsPlain.reply (h.keepRule hf name) _

/-! ### Steps and tasks -/

/-- A rule may be started on the one host. -/
theorem startRule (h : e.IsPlain config) (source : Option String) :
    (e.startRule 0 source).2.IsPlain config ∧
      (e.startRule 0 source).1.IsWithin (e.startRule 0 source).2.queries.length := by
  unfold Engine.startRule
  split
  · next f hf =>
    obtain ⟨name, -, hlookup⟩ := Option.bind_eq_some_iff.1 hf
    obtain ⟨s, hs, hplain⟩ := h.session
    obtain ⟨l₁, l₂, heq, -⟩ := List.lookup_eq_some_iff.1 hlookup
    refine ⟨h, hplain.rules (name, f) ?_⟩
    have hsession : e.session = s := by simp [Engine.session, hs, h.current]
    rw [← hsession, heq]
    simp
  · have hlisted : (e.updateHost 0 fun host =>
        { host with queries := host.queries ++ [e.queries.length] }).IsPlain config :=
      h.updateHost 0 fun host _ hplain =>
        ⟨⟨.refl _, List.prefix_rfl, List.prefix_append _ _⟩, hplain.actions, hplain.evaluations,
          hplain.resolver, hplain.listeners⟩
    refine ⟨hlisted.addRoot ?_, rfl, by simp [addQuery, Engine.updateHost]⟩
    obtain ⟨host, hhost, -⟩ := h.host
    refine ⟨{ host with queries := host.queries ++ [e.queries.length] }, ?_, by simp [Engine.updateHost]⟩
    simp [host?, Engine.updateHost, hhost]

/-- A plain step keeps an engine plain. -/
theorem performStep (h : e.IsPlain config) {s : Step} (hs : s.IsPlain config.evaluations) :
    (e.performStep s).IsPlain config := by
  obtain ⟨session, hsession, hplain⟩ := h.session
  obtain ⟨host, hhost, -⟩ := h.host
  have hfind : e.session.host.bind (fun h => (e.host? h).map fun host => (h, host)) =
      some (0, host) := by
    simp [Engine.session, hsession, h.current, hplain.host, host?, hhost]
  have hhold : (e.schedule [.hold [0] []]).IsPlain config := h.schedule (by simp [Task.IsPlain])
  cases hs with
  | rule hchain =>
    simp only [Engine.performStep, hfind, hostStep]
    obtain ⟨hstart, hfacet⟩ := hhold.startRule _
    refine hstart.schedule fun t ht => ?_
    rw [List.mem_singleton.1 ht]
    exact ⟨hfacet, hchain⟩
  | write field v automatic =>
    simp only [Engine.performStep, hfind, hostStep]
    exact hhold.schedule (by simp [Task.IsPlain])
  | effect he =>
    simp only [Engine.performStep, hfind, hostStep]
    exact hhold.schedule (by simpa [Task.IsPlain] using he)
  | dispatch hactions =>
    simp only [Engine.performStep, hfind, hostStep]
    exact hhold.schedule (by simpa [Task.IsPlain] using hactions)

end IsPlain

/-- Every plain task keeps a plain engine plain. -/
theorem IsPlain.perform {config : Config Action} {e : Engine}
    (hconfig : (Draft.withDefaults .builtin).build = .ok config) (h : e.IsPlain config) {t : Task}
    (ht : t.IsPlain config.evaluations e.queries.length) : (e.perform t).IsPlain config := by
  unfold Engine.perform
  split
  · exact h.performStep ht
  · exact h.record _
  · exact h.reply _
  · exact h.reply _
  · exact h
  · exact h.chain ht.1 ht.2 _
  · exact h.trigger _
  · exact h
  · exact h.schedule (by simp [Task.IsPlain])
  · exact h.deliver _ _ _ _
  · split
    · exact h.reply _
    · exact h
  · exact h.dispatch hconfig _ _ _ _ _ (ht _ List.mem_cons_self)
      fun _ _ hmem => ht _ (List.mem_cons_of_mem _ hmem)
  · refine h.schedule fun t hmem => ?_
    rcases List.mem_append.1 hmem with hmem | hmem
    · exact isPlain_actionTasks ht _ _ _ _ t hmem
    · rw [List.mem_singleton.1 hmem]
      trivial
  · exact h.applyEffect _ _ _ _ _ _
  · exact h.write _ _ _ _
  · exact h.record _
  · exact h.notify _ _ _
  · exact h
  · next l ls field v automatic =>
    have hrest : (e.schedule [.inform ls field v automatic]).IsPlain config := by
      refine h.schedule fun t hmem => ?_
      rw [List.mem_singleton.1 hmem]
      exact fun l hl => ht l (List.mem_cons_of_mem _ hl)
    obtain ⟨q, rfl⟩ := ht l List.mem_cons_self
    exact hrest.schedule (by simp [Task.IsPlain])
  · exact absurd ht id
  · exact absurd ht id
  · exact absurd ht id

/-- A new engine on a form is plain, with any plain script to run. -/
theorem isPlain_onForm {config : Config Action}
    (hconfig : (Draft.withDefaults .builtin).build = .ok config) (form : Form) (watched : Bool)
    {steps : List Step} (hsteps : ∀ s ∈ steps, s.IsPlain config.evaluations) :
    ({ onForm config form watched with agenda := Task.ofScript steps } : Engine).IsPlain config where
  current := rfl
  session := ⟨_, rfl, rfl, by simp⟩
  host := ⟨_, rfl, rfl, rfl, Resolver.isReporting_new hconfig form watched, by simp [Host.new]⟩
  queries q s hs := by simp [query?, onForm, openSession, addHost] at hs
  agenda := Task.isPlain_ofScript hsteps

end Engine

end FormRules
