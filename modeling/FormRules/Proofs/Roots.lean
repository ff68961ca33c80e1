import FormRules.Proofs.Defaults
import FormRules.Proofs.Rounds

/-!
# The roots of queries

Whoever has a name for a query, a session or a rule under construction, has it for one that exists,
and a bracket is younger than the query around it: `Engine.IsSound`. So the way from a query to its
parents comes to an end, and what `Engine.root` finds is a root (`isRoot_root`).

Of a tree of queries only the root uses its branch of direct actions (`Engine.mode`) and its
callbacks. A task chooses the branch of one tree at most, callbacks are added behind those there
are, and a call leaves at most its own mark on a callback: `Engine.Leads` says so of one task after
the other, whatever scripts, rules and actions do.
-/

namespace FormRules

/-- The queries that a session has names for. -/
def Session.known (s : Session) : List QueryId :=
  s.queries.map Prod.snd ++ s.rules.map fun r => r.2.query

/-- The query of the rule that a task builds. -/
def Task.built? : Task → Option QueryId
  | .chain f .. => some f.query
  | _ => none

/-- A session knows the queries that it has names for, and those of its rules. -/
theorem Session.mem_known {s : Session} {q : QueryId} :
    q ∈ s.known ↔ (∃ n ∈ s.queries, n.2 = q) ∨ ∃ r ∈ s.rules, r.2.query = q := by
  simp only [known, List.mem_append, List.mem_map]

/-- Scripts build nothing before their steps are performed. -/
theorem Task.built?_ofScript (run : List Step) : ∀ t ∈ Task.ofScript run, t.built? = none := by
  intro t ht
  obtain ⟨s, -, ht⟩ := List.mem_flatMap.1 ht
  simp only [List.mem_cons, List.not_mem_nil, or_false] at ht
  rcases ht with rfl | rfl <;> rfl

/-- The branch of direct actions that an attachment chooses. -/
def Polarity.chooses? : Polarity → Option Bool
  | holding => some false
  | failing => some true
  | _ => none

/-- The branch of direct actions that an operation on a junction chooses. -/
def ChainOp.chooses? {σ : Type} : ChainOp σ → Option Bool
  | .attach p .. => p.chooses?
  | .direct failing => some failing
  | _ => none

namespace Engine

/-- Parents are older than their children, and the queries that sessions and rules under construction
name exist. -/
structure IsSound (e : Engine) : Prop where
  parent : ∀ {q s p}, e.query? q = some s → s.parent = some p → p < q
  known : ∀ s ∈ e.sessions, ∀ q ∈ s.known, q < e.queries.length
  built : ∀ t ∈ e.agenda, ∀ q, t.built? = some q → q < e.queries.length

/-! ## Roots -/

namespace IsSound

variable {e : Engine}

/-- A parent is older than its brackets. -/
theorem lt_of_parent? (h : e.IsSound) {p q : QueryId} (hp : e.parent? q = some p) : p < q := by
  obtain ⟨hbind, -⟩ := Option.filter_eq_some_iff.1 hp
  obtain ⟨s, hs, hparent⟩ := Option.bind_eq_some_iff.1 hbind
  exact h.parent hs hparent

theorem rootWithin_le (h : e.IsSound) (n : Nat) (q : QueryId) : e.rootWithin n q ≤ q := by
  induction n generalizing q with
  | zero => exact Nat.le_refl q
  | succ n ih =>
    unfold rootWithin
    split
    · next p hp => exact (ih p).trans (h.lt_of_parent? hp).le
    · exact Nat.le_refl q

theorem root_le (h : e.IsSound) (q : QueryId) : e.root q ≤ q := h.rootWithin_le _ q

/-- There are fewer steps to the root than older queries. -/
theorem isRoot_rootWithin (h : e.IsSound) {n : Nat} {q : QueryId} (hq : q ≤ n) :
    e.isRoot (e.rootWithin n q) = true := by
  induction n generalizing q with
  | zero =>
    obtain rfl := Nat.le_zero.1 hq
    cases hp : e.parent? 0 with
    | none => simp [rootWithin, isRoot, hp]
    | some p => exact absurd (h.lt_of_parent? hp) (Nat.not_lt_zero p)
  | succ n ih =>
    unfold rootWithin
    split
    · next p hp => exact ih (Nat.le_of_lt_succ ((h.lt_of_parent? hp).trans_le hq))
    · next hp => simp [isRoot, hp]

/-- There are fewer steps to a root than queries. -/
theorem isRoot_root (h : e.IsSound) (q : QueryId) : e.isRoot (e.root q) = true := by
  rcases Nat.lt_or_ge e.queries.length q with hq | hq
  · have hnone : e.isRoot q = true := by
      simp [isRoot, parent?, query?, List.getElem?_eq_none hq.le]
    rwa [root_of_isRoot hnone]
  · exact h.isRoot_rootWithin hq

/-- A root is the root of its tree. -/
theorem root_root (h : e.IsSound) (q : QueryId) : e.root (e.root q) = e.root q :=
  root_of_isRoot (h.isRoot_root q)

theorem taken (h : e.IsSound) : e.taken.IsSound :=
  ⟨h.parent, h.known, fun t ht => h.built t (List.mem_of_mem_tail ht)⟩

/-- The queries that the running session knows exist. -/
theorem lt_of_known (h : e.IsSound) {q : QueryId} (hq : q ∈ e.session.known) :
    q < e.queries.length := by
  unfold session at hq
  cases hs : e.sessions[e.current]? with
  | none => simp [hs, Session.known] at hq
  | some s =>
    rw [hs, Option.getD_some] at hq
    exact h.known s (List.mem_of_getElem? hs) q hq

/-- A name of the session is that of a query that exists. -/
theorem lt_of_lookup_queries (h : e.IsSound) {name : String} {q : QueryId}
    (hq : e.session.queries.lookup name = some q) : q < e.queries.length := by
  obtain ⟨before, after, heq, -⟩ := List.lookup_eq_some_iff.1 hq
  exact h.lt_of_known (Session.mem_known.2 (Or.inl ⟨(name, q), by simp [heq], rfl⟩))

/-- A rule of the session is at a query that exists. -/
theorem lt_of_lookup_rules (h : e.IsSound) {name : String} {f : Facet}
    (hf : e.session.rules.lookup name = some f) : f.query < e.queries.length := by
  obtain ⟨before, after, heq, -⟩ := List.lookup_eq_some_iff.1 hf
  exact h.lt_of_known (Session.mem_known.2 (Or.inr ⟨(name, f), by simp [heq], rfl⟩))

end IsSound

/-! ## Branches of direct actions -/

/-- The branch of direct actions that a root query has. -/
def mode (e : Engine) (r : QueryId) : Bool := (e.queryAt r).negateDirect

/-- The branch of `r`, which was `failing`, after a branch was chosen for the tree of a query. -/
def branch (choice : Option (QueryId × Bool)) (r : QueryId) (failing : Bool) : Bool :=
  match choice with
  | some (q, b) => if q = r then b else failing
  | none => failing

/-- `e'` is sound, and is `e` after one choice of a branch at most; there may be more queries, and
more callbacks behind those of `e`. -/
structure Leads (e : Engine) (c : Option (QueryId × Bool)) (e' : Engine) : Prop where
  sound : e'.IsSound
  length : e.queries.length ≤ e'.queries.length
  mode : ∀ r, e'.mode r = branch c r (e.mode r)
  callbacks : ∀ r, e.callbacks r <+: e'.callbacks r

/-- A change that keeps parents keeps names and brackets in order. -/
theorem IsSound.updateQuery {e : Engine} (h : e.IsSound) (i : QueryId) {f : Query → Query}
    (hf : ∀ s, (f s).parent = s.parent) : (e.updateQuery i f).IsSound := by
  have hlength : (e.updateQuery i f).queries.length = e.queries.length := by
    simp [Engine.updateQuery]
  refine ⟨fun {q s p} hs hp => ?_, hlength.symm ▸ h.known, hlength.symm ▸ h.built⟩
  rw [query?_updateQuery] at hs
  split at hs
  · obtain ⟨t, ht, rfl⟩ := Option.map_eq_some_iff.1 hs
    exact h.parent ht (hf t ▸ hp)
  · exact h.parent hs hp

/-- A change of anything else leaves the branches of direct actions. -/
theorem mode_updateQuery (e : Engine) (i r : QueryId) {f : Query → Query}
    (hf : ∀ s, (f s).negateDirect = s.negateDirect) : (e.updateQuery i f).mode r = e.mode r := by
  rw [mode, mode, queryAt, queryAt, query?_updateQuery]
  split
  · cases e.query? r with
    | none => rfl
    | some s => exact hf s
  · rfl

theorem length_addQuery (e : Engine) (parent : Option QueryId) :
    (e.addQuery parent).2.queries.length = e.queries.length + 1 := by
  simp [addQuery]

namespace Leads

variable {e e' e'' : Engine} {c : Option (QueryId × Bool)}

/-- To do nothing chooses no branch. -/
theorem refl (h : e.IsSound) : e.Leads none e :=
  ⟨h, Nat.le_refl _, fun _ => rfl, fun _ => List.prefix_rfl⟩

/-- Changes of anything but the queries and their names. -/
theorem of_eq (h : e.Leads c e') (hq : e''.queries = e'.queries) (hs : e''.sessions = e'.sessions)
    (ha : e''.agenda = e'.agenda) : e.Leads c e'' where
  sound :=
    { parent := fun hs hp => h.sound.parent (by simpa only [query?, hq] using hs) hp
      known := by simpa only [hs, hq] using h.sound.known
      built := by simpa only [ha, hq] using h.sound.built }
  length := by simpa only [hq] using h.length
  mode := by simpa only [Engine.mode, queryAt, query?, hq] using h.mode
  callbacks := by simpa only [Engine.callbacks, query?, hq] using h.callbacks

theorem record (h : e.Leads c e') (events : List Event) : e.Leads c (e'.record events) :=
  h.of_eq rfl rfl rfl

theorem note (h : e.Leads c e') (d : Diagnostic) : e.Leads c (e'.note d) := h.of_eq rfl rfl rfl

theorem reply (h : e.Leads c e') (a : Answer) : e.Leads c (e'.reply a) := h.of_eq rfl rfl rfl

theorem observe {α : Type} (h : e.Leads c e') (x : Traced α) : e.Leads c (e'.observe x).2 :=
  h.of_eq rfl rfl rfl

theorem updateHost (h : e.Leads c e') (i : HostId) (f : Host → Host) :
    e.Leads c (e'.updateHost i f) := h.of_eq rfl rfl rfl

/-- Tasks may be scheduled that build at queries that exist. -/
theorem push (h : e.Leads c e') {tasks : List Task}
    (ht : ∀ t ∈ tasks, ∀ q, t.built? = some q → q < e'.queries.length) :
    e.Leads c (e'.schedule tasks) where
  sound :=
    { parent := h.sound.parent
      known := h.sound.known
      built := fun t hmem => (List.mem_append.1 hmem).elim (ht t) (h.sound.built t) }
  length := h.length
  mode := h.mode
  callbacks := h.callbacks

/-- Tasks that build nothing may be scheduled. -/
theorem schedule (h : e.Leads c e') {tasks : List Task} (ht : ∀ t ∈ tasks, t.built? = none) :
    e.Leads c (e'.schedule tasks) := h.push fun t hmem q hq => by simp [ht t hmem] at hq

/-- A session gets to know nothing but queries that exist. -/
theorem modifySession (h : e.Leads c e') (i : SessionId) {f : Session → Session}
    (hf : ∀ s, ∀ q ∈ (f s).known, q ∈ s.known ∨ q < e'.queries.length) :
    e.Leads c { e' with sessions := e'.sessions.modify i f } where
  sound :=
    { parent := h.sound.parent
      known := fun s hs q hq => by
        obtain ⟨j, hj⟩ := List.getElem?_of_mem hs
        rw [List.getElem?_modify] at hj
        obtain ⟨t, ht, hst⟩ := Option.map_eq_some_iff.1 hj
        have hmem := List.mem_of_getElem? ht
        split at hst
        · subst hst
          exact (hf t q hq).elim (h.sound.known t hmem q) id
        · subst hst
          exact h.sound.known _ hmem q hq
      built := h.sound.built }
  length := h.length
  mode := h.mode
  callbacks := h.callbacks

/-- A session may be changed as long as it knows queries that exist. -/
theorem updateSession (h : e.Leads c e') {f : Session → Session}
    (hf : ∀ s, ∀ q ∈ (f s).known, q ∈ s.known ∨ q < e'.queries.length) :
    e.Leads c (e'.updateSession f) := h.modifySession e'.current hf

theorem updateFlag (h : e.Leads c e') (ref : FlagRef) (f : Flag → Flag) :
    e.Leads c (e'.updateFlag ref f) := h.modifySession ref.session fun _ _ hq => Or.inl hq

/-- A query that exists may get a name. -/
theorem nameQuery (h : e.Leads c e') (name : String) {q : QueryId} (hq : q < e'.queries.length) :
    e.Leads c (e'.nameQuery name q) := by
  refine h.updateSession fun s p hp => ?_
  rcases Session.mem_known.1 hp with ⟨n, hn, rfl⟩ | hr
  · rcases Roster.mem_put hn with rfl | hn
    · exact Or.inr hq
    · exact Or.inl (Session.mem_known.2 (Or.inl ⟨n, hn, rfl⟩))
  · exact Or.inl (Session.mem_known.2 (Or.inr hr))

/-- A rule may be kept if its query exists. -/
theorem keepRule (h : e.Leads c e') {f : Facet} (hf : f.query < e'.queries.length) (name : String) :
    e.Leads c (e'.keepRule f name) := by
  refine (h.nameQuery name hf).updateSession fun s p hp => ?_
  rcases Session.mem_known.1 hp with hn | ⟨r, hr, rfl⟩
  · exact Or.inl (Session.mem_known.2 (Or.inl hn))
  · rcases Roster.mem_put hr with rfl | hr
    · exact Or.inr hf
    · exact Or.inl (Session.mem_known.2 (Or.inr ⟨r, hr, rfl⟩))

/-- A query may change where that keeps its parent, its branch and the callbacks it has. -/
theorem updateQuery (h : e.Leads c e') (i : QueryId) {f : Query → Query}
    (hf : ∀ s, (f s).parent = s.parent ∧ (f s).negateDirect = s.negateDirect ∧
      s.callbacks <+: (f s).callbacks) : e.Leads c (e'.updateQuery i f) := by
  have hlength : (e'.updateQuery i f).queries.length = e'.queries.length := by
    simp [Engine.updateQuery]
  refine ⟨h.sound.updateQuery i fun s => (hf s).1, hlength.symm ▸ h.length,
    fun r => (mode_updateQuery e' i r fun s => (hf s).2.1).trans (h.mode r),
    fun r => (h.callbacks r).trans ?_⟩
  rw [Engine.callbacks, Engine.callbacks, query?_updateQuery]
  split
  · cases e'.query? r with
    | none => exact List.prefix_rfl
    | some s => exact (hf s).2.2
  · exact List.prefix_rfl

/-- A new query may be put into a bracket of one that exists. -/
theorem addQuery (h : e.Leads c e') (parent : Option QueryId)
    (hp : ∀ p, parent = some p → p < e'.queries.length) : e.Leads c (e'.addQuery parent).2 := by
  have hlength : e'.queries.length ≤ (e'.addQuery parent).2.queries.length :=
    length_addQuery e' parent ▸ Nat.le_succ _
  refine ⟨⟨fun {q s p} hs hparent => ?_, fun s hs q hq => ?_, fun t ht q hq => ?_⟩,
    h.length.trans hlength, fun q => Eq.trans ?_ (h.mode q), fun q => (h.callbacks q).trans ?_⟩
  · rw [query?_addQuery] at hs
    split at hs
    · next hq =>
      obtain rfl := Option.some.inj hs
      exact hq ▸ hp p hparent
    · exact h.sound.parent hs hparent
  · exact (h.sound.known s hs q hq).trans_le hlength
  · exact (h.sound.built t ht q hq).trans_le hlength
  · rw [Engine.mode, Engine.mode, queryAt, queryAt, query?_addQuery]
    split
    · next hq => simp [query?, hq]
    · rfl
  · rw [Engine.callbacks, Engine.callbacks, query?_addQuery]
    split
    · next hq => simp [query?, hq]
    · exact List.prefix_rfl

/-! ### Queries and hosts -/

/-- A name leads to a query that exists, to a new one if it led to none. -/
theorem named (h : e.Leads c e') (name : String) :
    e.Leads c (e'.named name).2 ∧ (e'.named name).1 < (e'.named name).2.queries.length := by
  unfold Engine.named
  split
  · next q hq => exact ⟨h, h.sound.lt_of_lookup_queries hq⟩
  · have hnew : e'.queries.length < (e'.addQuery none).2.queries.length :=
      length_addQuery e' none ▸ Nat.lt_succ_self _
    exact ⟨(h.addQuery none (by simp)).nameQuery name hnew, hnew⟩

theorem nodeLeaf (h : e.Leads c e') (n : NodeSpec) : e.Leads c (e'.nodeLeaf n).2 := by
  cases n with
  | query name => exact (h.named name).1
  | flag name observable logged => exact h

/-- A condition leaves parents, branches and callbacks. -/
theorem addCondition (h : e.Leads c e') (q : QueryId) (leaf : Leaf) (observable : Bool) :
    e.Leads c (e'.addCondition q leaf observable) := by
  have hq : e.Leads c (e'.updateQuery q (·.addLeaf leaf)) :=
    h.updateQuery q fun _ => ⟨rfl, rfl, List.prefix_rfl⟩
  unfold Engine.addCondition observeLeaf
  split
  · split
    · exact hq.updateFlag _ _
    · exact hq
  · exact hq

theorem addClause (h : e.Leads c e') (q : QueryId) : e.Leads c (e'.addClause q) :=
  h.updateQuery q fun _ => ⟨rfl, rfl, List.prefix_rfl⟩

/-- A pause leaves parents, branches and callbacks. -/
theorem setPaused (h : e.Leads c e') (q : QueryId) (paused : Bool) :
    e.Leads c (e'.setPaused q paused) :=
  h.updateQuery _ fun _ => ⟨rfl, rfl, List.prefix_rfl⟩

/-- A subscription leaves queries as they are. -/
theorem subscribe (h : e.Leads c e') (i : HostId) (spec : Spec) (listener : Listener) :
    e.Leads c (e'.subscribe i spec listener) := by
  unfold Engine.subscribe
  split
  · exact h
  · exact (h.observe _).updateHost _ _

theorem listenTo (h : e.Leads c e') (f : Facet) (spec : Spec) : e.Leads c (e'.listenTo f spec) := by
  unfold Engine.listenTo
  split
  · exact h
  · exact h.subscribe _ _ _

theorem negative (h : e.Leads c e') (i : HostId) (name : String) :
    e.Leads c (e'.negative i name).2 := by
  unfold Engine.negative
  split
  · exact h
  · exact (h.updateHost _ _).record _

/-- A rule starts with a query that exists. -/
theorem startRule (h : e.Leads c e') (i : HostId) (source : Option String) :
    e.Leads c (e'.startRule i source).2 ∧
      (e'.startRule i source).1.query < (e'.startRule i source).2.queries.length := by
  unfold Engine.startRule
  split
  · next f hf =>
    obtain ⟨name, -, hf⟩ := Option.bind_eq_some_iff.1 hf
    exact ⟨h, h.sound.lt_of_lookup_rules hf⟩
  · exact ⟨(h.addQuery none (by simp)).updateHost _ _, by simp [Engine.addQuery, Engine.updateHost]⟩

/-! ### Actions and changes -/

/-- An action chooses no branch before its script runs. -/
theorem invoke (h : e.Leads c e') (i : HostId) (name : String) (args : Args) (skip : Bool)
    (report : Report) {next : Report → Task} (hnext : ∀ report, (next report).built? = none) :
    e.Leads c (e'.invoke i name args skip report next) := by
  unfold Engine.invoke
  split
  · exact h
  · split
    · exact (h.note _).schedule (List.forall_mem_cons.2 ⟨rfl, by simp [hnext]⟩)
    · exact (h.note _).schedule (by simp [hnext])

/-- A token chooses no branch before its script runs. -/
theorem dispatch (h : e.Leads c e') (i : HostId) (args : Args) (negate skip : Bool) (report : Report)
    {next : Report → Task} (hnext : ∀ report, (next report).built? = none) (t : Token Step) :
    e.Leads c (e'.dispatch i args negate skip report next t) := by
  unfold Engine.dispatch
  split
  · split
    · exact (h.note _).schedule (by simp [hnext])
    · refine (h.record _).schedule fun t ht => ?_
      rcases List.mem_append.1 ht with ht | ht
      · simp [Task.built?_ofScript _ t ht]
      · simp [List.mem_singleton.1 ht, hnext]
  · next name =>
    split
    · have hn := h.negative i name
      split
      · next heq => rw [heq] at hn; exact hn.invoke _ _ _ _ _ hnext
      · next heq => rw [heq] at hn; exact hn.schedule (by simp [hnext])
    · exact h.invoke _ _ _ _ _ hnext

/-- The tasks of an action build nothing. -/
theorem built?_actionTasks (classes : ClassNames) (i : HostId) (args : Args) (skip : Bool)
    (action : Action) : ∀ t ∈ actionTasks classes i args skip action, t.built? = none := by
  cases action with
  | builtin a =>
    intro t ht
    obtain ⟨op, -, rfl⟩ := List.mem_map.1 ht
    cases op <;> rfl
  | scripted a =>
    intro t ht
    rcases List.mem_cons.1 ht with rfl | ht
    · rfl
    · rcases List.mem_append.1 ht with ht | ht
      · split at ht
        · rw [List.mem_singleton.1 ht]
          rfl
        · simp at ht
      · exact Task.built?_ofScript _ t ht

theorem applyEffect (h : e.Leads c e') (i : HostId) (field : String) (effect : Effect) (s : Switch)
    (skip answers : Bool) : e.Leads c (e'.applyEffect i field effect s skip answers) := by
  unfold Engine.applyEffect
  split
  · exact h
  · next host hhost =>
    have hform := (h.observe (host.fields field false)).updateHost i fun x =>
      { x with form := (host.form.apply (host.fields field false).value effect s).1 }
    dsimp only
    refine schedule ?_ (by cases answers <;> simp [Task.built?])
    split
    · exact hform.record _
    · exact hform

theorem write (h : e.Leads c e') (i : HostId) (field : String) (v : Value) (automatic : Bool) :
    e.Leads c (e'.write i field v automatic) := by
  unfold Engine.write
  split
  · exact h
  · next host hhost =>
    have hform := (h.observe (host.fields field false)).updateHost i fun x =>
      { x with form := (host.form.write (host.fields field false).value v).1 }
    dsimp only
    refine schedule ?_ (by simp [Task.built?])
    split
    · exact hform.record _
    · exact hform

/-- A notification chooses no branch. -/
theorem notify (h : e.Leads c e') (i : HostId) (changed : List Handle) (automatic : Bool) :
    e.Leads c (e'.notify i changed automatic) := by
  unfold Engine.notify
  split
  · refine (note ?_ _).schedule (by simp [Task.built?])
    split
    · exact h
    · exact h.updateHost _ _
  · exact h

theorem inform (h : e.Leads c e') (field : String) (v : Option Value) (automatic : Bool)
    (l : Listener) : e.Leads c (e'.inform field v automatic l) := by
  cases l with
  | query q => exact h.schedule (by simp [Task.built?])
  | script label run =>
    exact (h.record _).schedule fun t ht => by simp [Task.built?_ofScript _ t ht]

/-- A trigger starts a round and chooses no branch. -/
theorem trigger (h : e.Leads c e') (q : QueryId) : e.Leads c (e'.trigger q) := by
  rw [trigger_eq]
  split
  · exact h.note _
  · split
    · exact h.record _
    · have hlast := (h.record (e'.evaluate (e'.root q)).events).updateQuery (e'.root q)
        (f := fun s => { s with last := some (e'.evaluate (e'.root q)).value })
        fun _ => ⟨rfl, rfl, List.prefix_rfl⟩
      exact (hlast.note _).schedule (by simp [Task.built?])

/-- A call on a rule chooses the branch of its tree. -/
theorem setDirect (h : e.Leads none e') {q : QueryId} (hq : q < e'.queries.length)
    (failing : Bool) : e.Leads (some (e'.root q, failing)) (e'.setDirect q failing) := by
  obtain ⟨s, hs⟩ : ∃ s, e'.query? (e'.root q) = some s :=
    ⟨_, List.getElem?_eq_getElem ((h.sound.root_le q).trans_lt hq)⟩
  have hlength : (e'.setDirect q failing).queries.length = e'.queries.length := by
    simp [Engine.setDirect, Engine.updateQuery]
  refine ⟨h.sound.updateQuery _ fun _ => rfl, hlength.symm ▸ h.length, fun r => ?_, fun r => ?_⟩
  · have hmode := h.mode r
    rw [Engine.mode, queryAt, Engine.setDirect, query?_updateQuery, branch]
    split
    · next hr => rw [← hr, hs]; rfl
    · exact hmode
  · refine (h.callbacks r).trans ?_
    rw [Engine.callbacks, Engine.callbacks, Engine.setDirect, query?_updateQuery]
    split
    · cases e'.query? r <;> exact List.prefix_rfl
    · exact List.prefix_rfl

/-- Choosing the branch that a tree is on changes no branch. -/
theorem of_same {q : QueryId} {b : Bool} (h : e.Leads (some (q, b)) e') (hb : b = e.mode q) :
    e.Leads none e' := by
  refine ⟨h.sound, h.length, fun r => (h.mode r).trans ?_, h.callbacks⟩
  simp only [branch]
  split
  · next hr => rw [hb, hr]
  · rfl

/-! ### Conditions and callbacks -/

/-- A condition may stand for a named query, which is there afterwards. -/
theorem conditionLeaf (h : e.Leads c e') (i : HostId) (field : String) (spec : Spec)
    (condition : ConditionSpec) : e.Leads c (e'.conditionLeaf i field spec condition).2 := by
  cases condition with
  | value v => exact h
  | test t label => exact h
  | node n => exact h.nodeLeaf n

/-- A callback goes behind those that the root of the tree has. -/
theorem addCallback (h : e.Leads c e') (q : QueryId) (callback : Callback) :
    e.Leads c (e'.addCallback q callback).2 ∧ (e'.addCallback q callback).1.built? = none := by
  have hq := h.updateQuery (e'.root q)
    (f := fun s => { s with callbacks := s.callbacks ++ [callback] })
    fun _ => ⟨rfl, rfl, List.prefix_append _ _⟩
  unfold Engine.addCallback
  dsimp only
  split
  · exact ⟨hq, rfl⟩
  · exact ⟨hq.observe _, rfl⟩

end Leads

/-! ## Chains -/

/-- The outcome of an operation of a chain: the rule goes on at a query that exists, and what follows
builds no other rule. -/
structure Continues (e : Engine) (c : Option (QueryId × Bool))
    (result : Engine × Facet × List Task) : Prop where
  leads : e.Leads c result.1
  facet : result.2.1.query < result.1.queries.length
  tasks : ∀ t ∈ result.2.2, t.built? = none

/-- The query whose tree an operation of a chain chooses the branch of, and the branch. -/
def chainChoice? (e : Engine) (f : Facet) (op : ChainOp Step) : Option (QueryId × Bool) :=
  if f.kind = .junction then op.chooses?.map fun failing => (e.root f.query, failing) else none

section Chains

variable {e e' : Engine} {c : Option (QueryId × Bool)} {f : Facet}

/-- After a callback the chain goes on at the root of its tree. -/
theorem continues_attach (h : e.Leads c e') (hf : f.query < e'.queries.length)
    (callback : Callback) : e.Continues c (e'.attach f callback) := by
  obtain ⟨hadd, htask⟩ := h.addCallback (e'.root f.query) callback
  obtain ⟨hgrown, -⟩ := (Leads.refl h.sound).addCallback (e'.root f.query) callback
  refine ⟨hadd, ((h.sound.root_le f.query).trans_lt hf).trans_le hgrown.length, fun t ht => ?_⟩
  rw [List.mem_singleton.1 ht]
  exact htask

/-- A list of actions chooses the branch that its polarity stands for. -/
theorem continues_attachActions (h : e.IsSound) (hf : f.query < e.queries.length) (p : Polarity)
    (actions : List (Token Step)) (args : Args) :
    e.Continues (p.chooses?.map fun failing => (e.root f.query, failing))
      (e.attachActions f p actions args) := by
  have hchosen := fun failing => (Leads.refl h).setDirect hf failing
  have hlength := fun failing => hf.trans_le (hchosen failing).length
  cases p with
  | holding => exact continues_attach (hchosen false) (hlength false) _
  | failing => exact continues_attach (hchosen true) (hlength true) _
  | onlyHolding => exact continues_attach (.refl h) hf _
  | onlyFailing => exact continues_attach (.refl h) hf _
  | once => exact continues_attach (.refl h) hf _

/-- An operation that takes conditions chooses no branch and goes on at a query that exists. -/
theorem continues_conditionOp (h : e.IsSound) (hf : f.query < e.queries.length)
    (op : ChainOp Step) :
    e.Leads none (e.conditionOp f op).1 ∧
      (e.conditionOp f op).2.query < (e.conditionOp f op).1.queries.length := by
  have hrefl := Leads.refl h
  unfold conditionOp
  split
  · next condition field =>
    have hleaf := (hrefl.observe (Spec.read (field.getD formAlias))).conditionLeaf f.host
      (field.getD formAlias) (Spec.read (field.getD formAlias)).value condition
    dsimp only [observe] at hleaf ⊢
    generalize (e.record _).conditionLeaf f.host _ _ condition = found at hleaf ⊢
    have hlisten := (hleaf.addCondition f.query found.1.1 found.1.2).listenTo f
      (Spec.read (field.getD formAlias)).value
    exact ⟨hlisten, hf.trans_le hlisten.length⟩
  · next field =>
    have hlisten := (hrefl.observe (Spec.read field)).listenTo f (Spec.read field).value
    exact ⟨hlisten, hf.trans_le hlisten.length⟩
  · have hnew := hrefl.addQuery (some f.query) fun p hp => Option.some.inj hp ▸ hf
    have hlisten := ((Leads.refl hnew.sound).addCondition f.query (.query e.queries.length)
      false).listenTo f .form
    have hlength : e.queries.length < (e.addQuery (some f.query)).2.queries.length :=
      length_addQuery e _ ▸ Nat.lt_succ_self _
    exact ⟨(hnew.addCondition f.query (.query e.queries.length) false).listenTo f .form,
      hlength.trans_le hlisten.length⟩
  · exact ⟨hrefl, hf⟩

/-- An operation that takes junctions chooses a branch if it says so, for the tree at hand. Direct
actions choose the branch again that the tree is on. -/
theorem continues_junctionOp (h : e.IsSound) (hf : f.query < e.queries.length)
    (op : ChainOp Step) :
    e.Continues (op.chooses?.map fun failing => (e.root f.query, failing)) (e.junctionOp f op) := by
  have hrefl := Leads.refl h
  cases op with
  | evaluate => exact ⟨(hrefl.observe _).record _, hf, by simp [junctionOp]⟩
  | and => exact ⟨hrefl, hf, by simp [junctionOp]⟩
  | or =>
    have hclause := hrefl.addClause f.query
    exact ⟨hclause, hf.trans_le hclause.length, by simp [junctionOp]⟩
  | closeBracket =>
    refine ⟨hrefl, ?_, by simp [junctionOp]⟩
    cases hp : e.parent? f.query with
    | none => simpa [junctionOp, hp] using hf
    | some p => simpa [junctionOp, hp] using (h.lt_of_parent? hp).trans hf
  | call label run => exact continues_attach hrefl hf _
  | attach p actions args => exact continues_attachActions h hf p actions args
  | direct failing =>
    have hchosen := hrefl.setDirect hf failing
    exact ⟨hchosen, hf.trans_le hchosen.length, by simp [junctionOp]⟩
  | action actions args =>
    obtain ⟨hleads, hfacet, htasks⟩ := continues_attachActions h hf
      (if e.isNegated f.query then .failing else .holding) actions args
    refine ⟨?_, hfacet, htasks⟩
    have hsame : (if e.isNegated f.query then Polarity.failing else .holding).chooses? =
        some (e.mode (e.root f.query)) := by
      change _ = some (e.isNegated f.query)
      cases e.isNegated f.query <;> rfl
    rw [hsame] at hleads
    exact hleads.of_same rfl
  | _ => exact ⟨hrefl, hf, by simp [junctionOp]⟩

/-- An operation of a chain chooses the branch that is read off it beforehand. -/
theorem continues_chainOp (h : e.IsSound) (hf : f.query < e.queries.length) (op : ChainOp Step) :
    e.Continues (e.chainChoice? f op) (e.chainOp f op) := by
  have hrefl := Leads.refl h
  have hnone : op.chooses? = none → e.chainChoice? f op = none := fun hop => by
    simp [chainChoice?, hop]
  unfold chainOp
  split
  · next name => exact ⟨hnone rfl ▸ hrefl.keepRule hf name, hf, by simp⟩
  · exact ⟨hnone rfl ▸ hrefl, hf, by simp [Task.built?]⟩
  · have hpaused := hrefl.setPaused f.query true
    exact ⟨hnone rfl ▸ hpaused, hf.trans_le hpaused.length, by simp⟩
  · have hpaused := hrefl.setPaused f.query false
    exact ⟨hnone rfl ▸ hpaused, hf.trans_le hpaused.length, by simp⟩
  · cases hkind : f.kind with
    | condition =>
      obtain ⟨hleads, hfacet⟩ := continues_conditionOp h hf op
      rw [chainChoice?, if_neg (by simp [hkind])]
      exact ⟨hleads, hfacet, by simp⟩
    | junction =>
      rw [chainChoice?, if_pos hkind]
      exact continues_junctionOp h hf op

end Chains

/-! ## Steps -/

/-- The engine while a step about the query of a name keeps it in use. -/
def keeping (e : Engine) (name : String) : Engine :=
  (e.named name).2.schedule [.hold [] [(e.named name).1]]

/-- The query whose tree a task chooses the branch of, and the branch. -/
def choice? (e : Engine) : Task → Option (QueryId × Bool)
  | .chain f (op :: _) _ => e.chainChoice? f op
  | .step (.query name (.negate failing)) =>
    some ((e.keeping name).root (e.named name).1, failing)
  | _ => none

namespace Leads

variable {e e' : Engine}

/-- A step about the host chooses no branch. -/
theorem hostStep (h : e.Leads none e') (i : HostId) (host : Host) (s : Step) :
    e.Leads none (e'.hostStep i host s) := by
  unfold Engine.hostStep
  split
  · next chain name source =>
    obtain ⟨hstart, hfacet⟩ := h.startRule i source
    refine hstart.push fun t ht q hq => ?_
    obtain rfl := List.mem_singleton.1 ht
    exact Option.some.inj hq ▸ hfacet
  · exact h.schedule (by simp [Task.built?])
  · exact h.schedule (by simp [Task.built?])
  · exact ((h.observe _).subscribe _ _ _).reply _
  · exact h.schedule (by simp [Task.built?])
  · exact (h.observe _).reply _
  · exact (h.observe _).reply _
  · exact (h.observe _).reply _
  · exact (h.observe _).reply _
  · exact (h.observe _).reply _
  · exact h.schedule (by simp [Task.built?])
  · refine (h.note _).schedule fun t ht => ?_
    rcases List.mem_append.1 ht with ht | ht
    · obtain ⟨q, -, rfl⟩ := List.mem_map.1 ht
      rfl
    · rw [List.mem_singleton.1 ht]
      rfl
  · exact h.reply _
  · exact (h.negative i _).reply _
  · exact h.reply _
  · exact h.reply _
  · exact h.reply _
  · exact (h.updateHost _ _).reply _
  · exact (h.updateHost _ _).reply _
  · split
    · exact (h.updateHost _ _).reply _
    · exact h.reply _
  · exact h.reply _
  · exact h
  · exact h
  · exact h
  · exact h

/-- A step about a named query chooses the branch of its tree if it says so. -/
theorem queryStep (h : e.IsSound) (name : String) (op : QueryOp Step) :
    e.Leads (e.choice? (.step (.query name op))) (e.queryStep name op) := by
  have hrefl := refl h
  unfold Engine.queryStep
  split
  · have hnew : e.queries.length < (e.addQuery none).2.queries.length :=
      length_addQuery e none ▸ Nat.lt_succ_self _
    exact ((hrefl.addQuery none (by simp)).nameQuery _ hnew).reply _
  · next parent =>
    obtain ⟨hnamed, hparent⟩ := hrefl.named parent
    have hchild := hnamed.addQuery (some (e.named parent).1) fun p hp =>
      Option.some.inj hp ▸ hparent
    exact (hchild.nameQuery _ (length_addQuery _ _ ▸ Nat.lt_succ_self _)).reply _
  · refine (hrefl.updateSession fun s q hq => Or.inl ?_).reply _
    rcases Session.mem_known.1 hq with ⟨n, hn, rfl⟩ | hr
    · exact Session.mem_known.2 (Or.inl ⟨n, List.mem_of_mem_filter hn, rfl⟩)
    · exact Session.mem_known.2 (Or.inr hr)
  · obtain ⟨hnamed, hq⟩ := hrefl.named name
    have hkeeping : e.Leads none (e.keeping name) := hnamed.schedule (by simp [Task.built?])
    have hq' : (e.named name).1 < (e.keeping name).queries.length := hq
    change e.Leads _ ((e.keeping name).queryOp (e.named name).1 op)
    cases op with
    | condition node =>
      exact ((hkeeping.nodeLeaf node).addCondition _ _ _).schedule (by simp [Task.built?])
    | or => exact (hkeeping.addClause _).schedule (by simp [Task.built?])
    | trigger => exact hkeeping.schedule (by simp [Task.built?])
    | pause => exact (hkeeping.setPaused _ true).schedule (by simp [Task.built?])
    | resume => exact (hkeeping.setPaused _ false).schedule (by simp [Task.built?])
    | negate failing =>
      have hchosen := hkeeping.setDirect hq' failing
      exact hchosen.schedule (by simp [Task.built?])
    | callback label run =>
      obtain ⟨hadd, htask⟩ := hkeeping.addCallback (e.named name).1 (.script label run)
      exact hadd.schedule (List.forall_mem_cons.2 ⟨htask, by simp [Task.built?]⟩)
    | evaluate => exact (hkeeping.observe _).reply _
    | same other => exact (hkeeping.named other).1.reply _
    | parent other => exact (hkeeping.named other).1.reply _
    | listen node label =>
      have hn := hkeeping.nodeLeaf node
      simp only [queryOp]
      split
      · exact (hn.updateFlag _ _).reply _
      · exact hn.reply _
    | and => exact hkeeping.schedule (by simp [Task.built?])
    | inspect => exact hkeeping.schedule (by simp [Task.built?])
    | new => exact hkeeping
    | childOf parent => exact hkeeping
    | drop => exact hkeeping

/-- A step chooses the branch that is read off it beforehand. -/
theorem performStep (h : e.IsSound) (s : Step) :
    e.Leads (e.choice? (.step s)) (e.performStep s) := by
  have hrefl := refl h
  unfold Engine.performStep
  split
  · exact queryStep h _ _
  · exact (hrefl.updateFlag _ _).schedule (by simp [Task.built?])
  · refine (hrefl.updateSession fun s q hq => Or.inl ?_).reply _
    rcases Session.mem_known.1 hq with hn | ⟨r, hr, rfl⟩
    · exact Session.mem_known.2 (Or.inl hn)
    · exact Session.mem_known.2 (Or.inr ⟨r, List.mem_of_mem_filter hr, rfl⟩)
  · have hdropped := hrefl.updateSession (f := fun s => { s with rules := [], host := none })
      fun s q hq => Or.inl (by
        rcases Session.mem_known.1 hq with hn | ⟨r, hr, rfl⟩
        · exact Session.mem_known.2 (Or.inl hn)
        · simp at hr)
    dsimp only
    split
    · exact hdropped.reply _
    · exact hdropped.reply _
  · next hquery _ _ _ =>
    have hnone : ∀ s, (∀ name op, s = .query name op → False) → e.choice? (.step s) = none := by
      intro s hs
      cases s with
      | query name op => exact (hs name op rfl).elim
      | _ => rfl
    rw [hnone _ hquery]
    split
    · exact (hrefl.schedule (by simp [Task.built?])).hostStep _ _ _
    · exact hrefl.reply _

/-- What a task does to queries that is not a call. -/
theorem perform (h : e.IsSound) {t : Task} (hbuilt : ∀ q, t.built? = some q → q < e.queries.length)
    (ht : ∀ q i state skip, t ≠ .deliver q i state skip) :
    e.Leads (e.choice? t) (e.perform t) := by
  have hrefl := refl h
  cases t with
  | step s => exact performStep h s
  | chain f ops name =>
    have hf := hbuilt f.query rfl
    cases ops with
    | nil =>
      cases name with
      | none => exact hrefl.reply _
      | some name => exact (hrefl.keepRule hf name).reply _
    | cons op ops =>
      obtain ⟨hleads, hfacet, htasks⟩ := continues_chainOp h hf op
      refine hleads.push fun t ht q hq => ?_
      rcases List.mem_append.1 ht with ht | ht
      · simp [htasks t ht] at hq
      · obtain rfl := List.mem_singleton.1 ht
        exact Option.some.inj hq ▸ hfacet
  | deliver q i state skip => exact (ht q i state skip rfl).elim
  | ran step => exact hrefl.record _
  | answer a => exact hrefl.reply _
  | summarize q => exact hrefl.reply _
  | hold hosts queries => exact hrefl
  | trigger q => exact hrefl.trigger q
  | round q state skip pending =>
    cases pending with
    | nil => exact hrefl
    | cons i rest => exact hrefl.schedule (by simp [Task.built?])
  | dispatch i tokens args negate skip report answers =>
    cases tokens with
    | nil =>
      simp only [choice?, Engine.perform]
      split
      · exact hrefl.reply _
      · exact hrefl
    | cons token tokens =>
      have hnext : ∀ report, (Task.dispatch i tokens args negate skip report answers).built? = none :=
        fun _ => rfl
      exact hrefl.dispatch i args negate skip report hnext token
  | perform i action args skip =>
    refine hrefl.schedule fun t ht => ?_
    rcases List.mem_append.1 ht with ht | ht
    · exact built?_actionTasks _ _ _ _ _ t ht
    · rw [List.mem_singleton.1 ht]
      rfl
  | effect i field effect s skip answers => exact hrefl.applyEffect _ _ _ _ _ _
  | write i field v automatic => exact hrefl.write _ _ _ _
  | log event => exact hrefl.record _
  | notify i changed automatic => exact hrefl.notify _ _ _
  | inform listeners field v automatic =>
    cases listeners with
    | nil => exact hrefl
    | cons l ls => exact (hrefl.schedule (by simp [Task.built?])).inform _ _ _ _
  | flagSet listeners =>
    cases listeners with
    | nil => exact hrefl
    | cons l ls =>
      cases l with
      | log label => exact (hrefl.record _).schedule (by simp [Task.built?])
      | query q =>
        simp only [choice?, Engine.perform]
        split
        · exact hrefl.schedule (by simp [Task.built?])
        · exact hrefl.schedule (by simp [Task.built?])

end Leads

end Engine

end FormRules
