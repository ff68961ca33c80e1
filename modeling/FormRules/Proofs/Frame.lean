import FormRules.Proofs.Changes

/-!
# What every task keeps

A task puts what follows from it in front of the agenda and leaves the rest of the agenda alone, so
the agenda is a stack. Queries keep their parents, hosts the fields of their forms; conditions,
callbacks, subscriptions and rules are only added (`Engine.Extends`, `extends_perform`). Apart from
triggers, no task starts a round (`Engine.Grows`, `grows_perform`).

Most operations do less: they leave the conditions and callbacks of queries and what conditions see
of forms as they are (`Engine.Keeps`). `Engine.Moves` is what these relations share, so that each
operation on the state is looked at once.
-/

namespace FormRules

/-! ## Queries and hosts -/

/-- A callback without the mark of whether it ran for the last time. -/
def Callback.unspent : Callback → Callback
  | .attached h p actions args _ => .attached h p actions args false
  | c => c

/-- A list of actions keeps its place when it is spent. -/
theorem Callback.map_unspent_set {cs : List Callback} {i : Nat} {host : HostId} {p : Polarity}
    {actions : List (Token Step)} {args : Args} {spent : Bool}
    (h : cs[i]? = some (.attached host p actions args spent)) :
    (cs.set i (.attached host p actions args true)).map unspent = cs.map unspent := by
  refine List.ext_getElem? fun j => ?_
  by_cases hj : i = j
  · subst hj
    have hi : i < cs.length := (List.getElem?_eq_some_iff.1 h).1
    have hc : cs[i] = .attached host p actions args spent := by
      simpa [List.getElem?_eq_getElem hi] using h
    simp [hi, hc, unspent]
  · simp [hj]

/-- `t` is `s` with more conditions and callbacks: it has the same parent, every query that was a
condition of `s`, and every callback of `s` in its place. -/
structure Query.Grows (s t : Query) : Prop where
  parent : t.parent = s.parent
  mentions : ∀ q, s.mentions q = true → t.mentions q = true
  callbacks : s.callbacks.map Callback.unspent <+: t.callbacks.map Callback.unspent

/-- What the result of a query, its rounds and their calls depend on. -/
def Query.kept (s : Query) : List (List Leaf) × Option Bool × Bool × List Callback :=
  (s.clauses, s.last, s.paused, s.callbacks.map Callback.unspent)

/-- `t` is `s` with more subscriptions and rules, on a form with the same fields. -/
structure Host.Grows (s t : Host) : Prop where
  fields : s.form.SameIds t.form
  subscriptions : s.subscriptions <+: t.subscriptions
  queries : s.queries <+: t.queries

/-- `t` is `s` with more subscriptions and rules, and evaluates and acts as `s` does. -/
structure Host.Keeps (s t : Host) : Prop extends Host.Grows s t where
  form : t.form = s.form
  evaluations : t.evaluations = s.evaluations

theorem Query.Grows.refl (s : Query) : s.Grows s := ⟨rfl, fun _ h => h, List.prefix_rfl⟩

theorem Host.Grows.refl (s : Host) : s.Grows s := ⟨.refl _, List.prefix_rfl, List.prefix_rfl⟩

theorem Host.Keeps.refl (s : Host) : s.Keeps s := ⟨.refl s, rfl, rfl⟩

/-- A query may grow in two stretches. -/
theorem Query.Grows.trans {s t u : Query} (h : s.Grows t) (h' : t.Grows u) : s.Grows u :=
  ⟨h'.parent.trans h.parent, fun q hq => h'.mentions q (h.mentions q hq),
    h.callbacks.trans h'.callbacks⟩

/-- A host may grow in two stretches. -/
theorem Host.Grows.trans {s t u : Host} (h : s.Grows t) (h' : t.Grows u) : s.Grows u :=
  ⟨h.fields.trans h'.fields, h.subscriptions.trans h'.subscriptions, h.queries.trans h'.queries⟩

instance : Trans Host.Grows Host.Grows Host.Grows := ⟨Host.Grows.trans⟩

instance : Trans Host.Keeps Host.Keeps Host.Keeps :=
  ⟨fun h h' =>
    ⟨h.toGrows.trans h'.toGrows, h'.form.trans h.form, h'.evaluations.trans h.evaluations⟩⟩

/-- Whether the task triggers a query. -/
def Task.isTrigger : Task → Bool
  | .trigger _ => true
  | _ => false

namespace Engine

/-- A change of one query leaves the others as they are. -/
theorem query?_updateQuery (e : Engine) (i q : QueryId) (f : Query → Query) :
    (e.updateQuery i f).query? q = if i = q then (e.query? q).map f else e.query? q := by
  simp only [query?, updateQuery, List.getElem?_modify]
  split <;> simp_all

/-- A change of one host leaves the others as they are. -/
theorem host?_updateHost (e : Engine) (i h : HostId) (f : Host → Host) :
    (e.updateHost i f).host? h = if i = h then (e.host? h).map f else e.host? h := by
  simp only [host?, updateHost, List.getElem?_modify]
  split <;> simp_all

/-- The host of a position after its form has changed. -/
theorem host?_updateForm {e : Engine} {h : HostId} {host : Host} (hhost : e.host? h = some host)
    (form : Form) : (e.updateHost h fun x => { x with form }).host? h = some { host with form } := by
  rw [host?_updateHost, if_pos rfl, hhost]
  rfl

/-- Subscribing to an identifier is subscribing to the fields that it picks now. -/
theorem subscribe_eq {e : Engine} {i : HostId} {host : Host} (hhost : e.host? i = some host)
    {spec : Spec} (hspec : spec.isAll = false) (l : Listener) : ∃ events, e.subscribe i spec l =
      (e.record events).updateHost i fun x =>
        { x with subscriptions := x.subscriptions ++ [⟨some (host.form.pick spec), l⟩] } := by
  cases spec with
  | all => simp [Spec.isAll] at hspec
  | fields ss =>
    refine ⟨(host.resolve (.fields ss) false).events, ?_⟩
    simp only [Engine.subscribe, hhost, Engine.observe, Traced.value_map, Traced.events_map,
      Host.value_resolve]

/-- A rule that listens to an identifier is subscribed to the groups of the identifier. -/
theorem exists_listenTo {e : Engine} {f : Facet} {host : Host} (hhost : e.host? f.host = some host)
    {spec : Spec} (hspec : spec.isAll = false) :
    ∃ host', (e.listenTo f spec).host? f.host = some host' ∧ host'.form = host.form ∧
      ⟨some (host.form.pick spec.trigger), .query f.query⟩ ∈ host'.subscriptions := by
  have htrigger : spec.trigger.isAll = false := by
    cases spec with
    | all => exact hspec
    | fields ss => rfl
  obtain ⟨events, hsub⟩ := subscribe_eq hhost htrigger (.query f.query)
  have hhost' : (e.record events).host? f.host = some host := hhost
  rw [Engine.listenTo, hspec, if_neg Bool.false_ne_true, hsub, host?_updateHost, if_pos rfl, hhost']
  exact ⟨_, rfl, rfl, by simp⟩

/-- A new query is the last one and has no conditions. -/
theorem query?_addQuery (e : Engine) (parent : Option QueryId) (q : QueryId) :
    (e.addQuery parent).2.query? q =
      if q = e.queries.length then some { parent } else e.query? q := by
  simp only [query?, addQuery]
  split
  · next hq => simp [hq]
  · next hq =>
    rcases Nat.lt_or_gt_of_ne hq with hlt | hgt
    · rw [List.getElem?_append_left hlt]
    · rw [List.getElem?_eq_none (by simp; omega), List.getElem?_eq_none (by omega)]

/-- The query of a position; a new one where there is none. -/
def queryAt (e : Engine) (q : QueryId) : Query := (e.query? q).getD {}

/-- The result of a query at its last round. -/
def last? (e : Engine) (r : QueryId) : Option Bool := (e.queryAt r).last

/-- A query that is there is the one that is found. -/
theorem queryAt_eq {e : Engine} {q : QueryId} {s : Query} (hs : e.query? q = some s) :
    e.queryAt q = s := by
  rw [queryAt, hs, Option.getD_some]

/-! ## Moves -/

/-- `e'` is `e` with more to do and larger queries, where hosts change as `H` says; what `V` sees of
queries stays. -/
structure Moves {α : Type} (V : QueryId → Query → α) (H : Host → Host → Prop) (e e' : Engine) :
    Prop where
  agenda : e.agenda <:+ e'.agenda
  query : ∀ q s, e.query? q = some s → ∃ t, e'.query? q = some t ∧ s.Grows t
  host : ∀ h s, e.host? h = some s → ∃ t, e'.host? h = some t ∧ H s t
  view : ∀ q, V q (e'.queryAt q) = V q (e.queryAt q)

/-- `e'` is `e` with more to do and with larger queries and hosts; no round has started. -/
abbrev Grows (e e' : Engine) : Prop := Moves (fun _ => Query.last) Host.Grows e e'

/-- `e'` is `e` with more to do and with more subscriptions and rules, and evaluates as `e` does. -/
abbrev Keeps (e e' : Engine) : Prop := Moves (fun _ => Query.kept) Host.Keeps e e'

namespace Moves

variable {α : Type} {V : QueryId → Query → α} {H : Host → Host → Prop} {e e' e'' : Engine}

theorem refl (hH : ∀ s, H s s) (e : Engine) : Moves V H e e :=
  ⟨List.suffix_rfl, fun _ s h => ⟨s, h, .refl s⟩, fun _ s h => ⟨s, h, hH s⟩, fun _ => rfl⟩

/-- Moves may follow each other if what is asked of hosts may. -/
theorem trans [Trans H H H] (h : Moves V H e e') (h' : Moves V H e' e'') : Moves V H e e'' where
  agenda := h.agenda.trans h'.agenda
  query := by
    intro q s hs
    obtain ⟨t, ht, hst⟩ := h.query q s hs
    obtain ⟨u, hu, htu⟩ := h'.query q t ht
    exact ⟨u, hu, hst.trans htu⟩
  host := by
    intro i s hs
    obtain ⟨t, ht, hst⟩ := h.host i s hs
    obtain ⟨u, hu, htu⟩ := h'.host i t ht
    exact ⟨u, hu, Trans.trans hst htu⟩
  view q := (h'.view q).trans (h.view q)

/-- A move in more of the queries and hosts is one in less. -/
theorem weaken {β : Type} {W : QueryId → Query → β} {K : Host → Host → Prop} (h : Moves V H e e')
    (hV : ∀ q s t, V q s = V q t → W q s = W q t) (hH : ∀ s t, H s t → K s t) :
    Moves W K e e' where
  agenda := h.agenda
  query := h.query
  host i s hs := (h.host i s hs).imp fun _ ht => ⟨ht.1, hH _ _ ht.2⟩
  view q := hV q _ _ (h.view q)

/-- Changes of anything but the agenda, the queries and the hosts. -/
theorem of_eq (h : Moves V H e e') (ha : e''.agenda = e'.agenda) (hq : e''.queries = e'.queries)
    (hh : e''.hosts = e'.hosts) : Moves V H e e'' where
  agenda := ha ▸ h.agenda
  query := by simpa only [query?, hq] using h.query
  host := by simpa only [host?, hh] using h.host
  view := by simpa only [queryAt, query?, hq] using h.view

theorem record (h : Moves V H e e') (events : List Event) : Moves V H e (e'.record events) :=
  h.of_eq rfl rfl rfl

theorem note (h : Moves V H e e') (d : Diagnostic) : Moves V H e (e'.note d) := h.record _

theorem reply (h : Moves V H e e') (a : Answer) : Moves V H e (e'.reply a) := h.of_eq rfl rfl rfl

theorem updateSession (h : Moves V H e e') (f : Session → Session) :
    Moves V H e (e'.updateSession f) := h.of_eq rfl rfl rfl

theorem updateFlag (h : Moves V H e e') (ref : FlagRef) (f : Flag → Flag) :
    Moves V H e (e'.updateFlag ref f) := h.of_eq rfl rfl rfl

theorem nameQuery (h : Moves V H e e') (name : String) (q : QueryId) :
    Moves V H e (e'.nameQuery name q) := h.updateSession _

theorem keepRule (h : Moves V H e e') (f : Facet) (name : String) :
    Moves V H e (e'.keepRule f name) := (h.nameQuery _ _).updateSession _

theorem observe {β : Type} (h : Moves V H e e') (x : Traced β) : Moves V H e (e'.observe x).2 :=
  h.record _

/-- Tasks are put in front of the agenda, so the old one is still the end of the new one. -/
theorem schedule (h : Moves V H e e') (tasks : List Task) : Moves V H e (e'.schedule tasks) where
  agenda := h.agenda.trans (List.suffix_append tasks e'.agenda)
  query := h.query
  host := h.host
  view := h.view

/-- A host may change in the way that the move allows. -/
theorem updateHost [Trans H H H] (h : Moves V H e e') (i : HostId) {f : Host → Host}
    (hf : ∀ s, e'.host? i = some s → H s (f s)) : Moves V H e (e'.updateHost i f) where
  agenda := h.agenda
  query := h.query
  host := by
    intro j s hs
    obtain ⟨t, ht, hst⟩ := h.host j s hs
    by_cases hij : i = j
    · exact ⟨f t, by simp [host?_updateHost, hij, ht], Trans.trans hst (hf t (hij ▸ ht))⟩
    · exact ⟨t, by simp [host?_updateHost, hij, ht], hst⟩
  view := h.view

/-- A query may grow as long as what is looked at of it stays. -/
theorem updateQuery (h : Moves V H e e') (i : QueryId) {f : Query → Query}
    (hf : ∀ s, e'.query? i = some s → s.Grows (f s))
    (hV : ∀ s, e'.query? i = some s → V i (f s) = V i s) : Moves V H e (e'.updateQuery i f) where
  agenda := h.agenda
  query := by
    intro q s hs
    obtain ⟨t, ht, hst⟩ := h.query q s hs
    by_cases hi : i = q
    · exact ⟨f t, by simp [query?_updateQuery, hi, ht], hst.trans (hf t (hi ▸ ht))⟩
    · exact ⟨t, by simp [query?_updateQuery, hi, ht], hst⟩
  host := h.host
  view := by
    intro q
    rw [← h.view q, queryAt, queryAt, query?_updateQuery]
    split
    · next hi =>
      cases hs : e'.query? q with
      | none => rfl
      | some s => exact hi ▸ hV s (hi ▸ hs)
    · rfl

/-- A new query looks like one that was not there. -/
theorem addQuery (h : Moves V H e e') (parent : Option QueryId)
    (hV : ∀ q, V q { parent } = V q {}) :
    Moves V H e (e'.addQuery parent).2 where
  agenda := h.agenda
  query := by
    intro q s hs
    obtain ⟨t, ht, hst⟩ := h.query q s hs
    have hq : q ≠ e'.queries.length := Nat.ne_of_lt (List.getElem?_eq_some_iff.1 ht).1
    exact ⟨t, by rw [query?_addQuery, if_neg hq, ht], hst⟩
  host := h.host
  view := by
    intro q
    rw [← h.view q, queryAt, queryAt, query?_addQuery]
    split
    · next hq => simp [query?, hq, hV]
    · rfl

/-- A condition may be added where clauses are not looked at. -/
theorem addLeaf (h : Moves V H e e') {q : QueryId}
    (hV : ∀ s clauses, V q { s with clauses := clauses } = V q s) (leaf : Leaf) :
    Moves V H e (e'.updateQuery q (·.addLeaf leaf)) := by
  refine h.updateQuery q (fun s _ => ⟨rfl, fun r hr => ?_, List.prefix_rfl⟩) fun s _ => hV s _
  exact Query.mentions_iff.2 (Query.exists_mem_addLeaf.2 (Or.inl (Query.mentions_iff.1 hr)))

/-- A clause may be added where clauses are not looked at. -/
theorem addClause (h : Moves V H e e') {q : QueryId}
    (hV : ∀ s clauses, V q { s with clauses := clauses } = V q s) : Moves V H e (e'.addClause q) := by
  refine h.updateQuery q (fun s _ => ⟨rfl, fun r hr => ?_, List.prefix_rfl⟩) fun s _ => hV s _
  obtain ⟨clause, hc, hl⟩ := Query.mentions_iff.1 hr
  exact Query.mentions_iff.2 ⟨clause, List.mem_append_left _ hc, hl⟩

/-- The branch of direct actions may be chosen where it is not looked at. -/
theorem setDirect (h : Moves V H e e') (hV : ∀ q s b, V q { s with negateDirect := b } = V q s)
    (q : QueryId) (failing : Bool) : Moves V H e (e'.setDirect q failing) :=
  h.updateQuery _ (fun _ _ => ⟨rfl, fun _ h => h, List.prefix_rfl⟩) fun _ _ => hV _ _ _

/-- Subscriptions are not what conditions see of a form. -/
theorem subscribe (h : Moves V Host.Keeps e e') (i : HostId) (spec : Spec) (listener : Listener) :
    Moves V Host.Keeps e (e'.subscribe i spec listener) := by
  unfold Engine.subscribe
  split
  · exact h
  · exact updateHost (h.observe _) i fun s _ =>
      ⟨⟨.refl _, List.prefix_append _ _, List.prefix_rfl⟩, rfl, rfl⟩

theorem listenTo (h : Moves V Host.Keeps e e') (f : Facet) (spec : Spec) :
    Moves V Host.Keeps e (e'.listenTo f spec) := by
  unfold Engine.listenTo
  split
  · exact h
  · exact h.subscribe _ _ _

end Moves

theorem Grows.refl (e : Engine) : e.Grows e := Moves.refl Host.Grows.refl e

theorem Keeps.refl (e : Engine) : e.Keeps e := Moves.refl Host.Keeps.refl e

/-! ## Operations that keep what conditions see -/

namespace Keeps

variable {e e' : Engine}

/-- What keeps queries and forms lets them grow. -/
theorem grows (h : e.Keeps e') : e.Grows e' :=
  Moves.weaken h (fun _ _ _ hv => congrArg (·.2.1) hv) fun _ _ => Host.Keeps.toGrows

/-- A callback spends itself at most, and schedules what it runs. -/
theorem deliver (h : e.Keeps e') (q : QueryId) (i : Nat) (state skip : Bool) :
    e.Keeps (e'.deliver q i state skip) := by
  unfold Engine.deliver
  split
  · exact h
  · exact (h.record _).schedule _
  · next host p actions args spent heq =>
    have hmark : e.Keeps (if p = .once ∧ state then
        e'.updateQuery q fun s =>
          { s with callbacks := s.callbacks.set i (.attached host p actions args true) }
        else e') := by
      split
      · have hspent : ∀ s, e'.query? q = some s →
            (s.callbacks.set i (.attached host p actions args true)).map Callback.unspent =
              s.callbacks.map Callback.unspent := by
          intro s hs
          have hi : s.callbacks[i]? = some (.attached host p actions args spent) := by
            simpa [hs] using heq
          exact Callback.map_unspent_set hi
        refine Moves.updateQuery h q (fun s hs => ⟨rfl, fun _ h => h, ?_⟩) fun s hs => ?_
        · simp [hspent s hs]
        · simp [Query.kept, hspent s hs]
      · exact h
    dsimp only
    generalize (if p = .once ∧ state then _ else e') = marked at hmark ⊢
    split
    · exact h
    · split
      · split
        · exact hmark.schedule _
        · exact hmark
      · exact hmark

/-- A notification marks the form as changed by hand, and schedules who hears of it. -/
theorem notify (h : e.Keeps e') (i : HostId) (changed : List Handle) (automatic : Bool) :
    e.Keeps (e'.notify i changed automatic) := by
  unfold Engine.notify
  split
  · refine Moves.schedule (Moves.note ?_ _) _
    split
    · exact h
    · exact Moves.updateHost h i fun _ _ => ⟨⟨.refl _, List.prefix_rfl, List.prefix_rfl⟩, rfl, rfl⟩
  · exact h

/-- A listener is scheduled, as a trigger or as a script. -/
theorem inform (h : e.Keeps e') (field : String) (v : Option Value) (automatic : Bool)
    (l : Listener) : e.Keeps (e'.inform field v automatic l) := by
  cases l with
  | query q => exact h.schedule _
  | script label run => exact (h.record _).schedule _

/-- Looking for an opposite changes the resolver only. -/
theorem negative (h : e.Keeps e') (i : HostId) (name : String) :
    e.Keeps (e'.negative i name).2 := by
  have hresolver : ∀ resolver, e.Keeps (e'.updateHost i fun host => { host with resolver }) :=
    fun _ => Moves.updateHost h i fun _ _ =>
      ⟨⟨.refl _, List.prefix_rfl, List.prefix_rfl⟩, rfl, rfl⟩
  unfold Engine.negative
  split
  · exact h
  · exact (hresolver _).record _

/-- An action is scheduled with what follows it. -/
theorem invoke (h : e.Keeps e') (i : HostId) (name : String) (args : Args) (skip : Bool)
    (report : Report) (next : Report → Task) :
    e.Keeps (e'.invoke i name args skip report next) := by
  unfold Engine.invoke
  split
  · exact h
  · split
    · exact (h.note _).schedule _
    · exact (h.note _).schedule _

/-- A token schedules what it runs and the tokens behind it. -/
theorem dispatch (h : e.Keeps e') (i : HostId) (args : Args) (negate skip : Bool) (report : Report)
    (next : Report → Task) (t : Token Step) :
    e.Keeps (e'.dispatch i args negate skip report next t) := by
  unfold Engine.dispatch
  split
  · split
    · exact (h.note _).schedule _
    · exact (h.record _).schedule _
  · next name =>
    split
    · have hn := Keeps.negative h i name
      split
      · next heq => rw [heq] at hn; exact Keeps.invoke hn _ _ _ _ _ _
      · next heq => rw [heq] at hn; exact hn.schedule _
    · exact Keeps.invoke h _ _ _ _ _ _

/-- A rule starts at the query of an older one or at a new one. -/
theorem startRule (h : e.Keeps e') (i : HostId) (source : Option String) :
    e.Keeps (e'.startRule i source).2 := by
  unfold Engine.startRule
  split
  · exact h
  · exact Moves.updateHost (Moves.addQuery h none fun _ => rfl) i fun s _ =>
      ⟨⟨.refl _, List.prefix_rfl, List.prefix_append _ _⟩, rfl, rfl⟩

end Keeps

/-! ## Operations that add or change -/

namespace Grows

variable {e e' : Engine}

/-- What grows may be kept afterwards. -/
theorem keeps {e'' : Engine} (h : e.Grows e') (h' : e'.Keeps e'') : e.Grows e'' :=
  Moves.trans h (Keeps.grows h')

/-- A name without a query gets a new one. -/
theorem named (h : e.Grows e') (name : String) : e.Grows (e'.named name).2 := by
  unfold Engine.named
  split
  · exact h
  · exact (Moves.addQuery h none fun _ => rfl).nameQuery name _

theorem nodeLeaf (h : e.Grows e') (n : NodeSpec) : e.Grows (e'.nodeLeaf n).2 := by
  cases n with
  | query name => exact Grows.named h name
  | flag name observable logged => exact h

/-- A condition is added to a query, which may listen to a flag for it. -/
theorem addCondition (h : e.Grows e') (q : QueryId) (leaf : Leaf) (observable : Bool) :
    e.Grows (e'.addCondition q leaf observable) := by
  have hq : e.Grows (e'.updateQuery q (·.addLeaf leaf)) := Moves.addLeaf h (fun _ _ => rfl) leaf
  unfold Engine.addCondition observeLeaf
  split
  · split
    · exact hq.updateFlag _ _
    · exact hq
  · exact hq

theorem setPaused (h : e.Grows e') (q : QueryId) (paused : Bool) :
    e.Grows (e'.setPaused q paused) :=
  Moves.updateQuery h _ (fun _ _ => ⟨rfl, fun _ h => h, List.prefix_rfl⟩) fun _ _ => rfl

/-- A callback is added at the root of the tree. -/
theorem addCallback (h : e.Grows e') (q : QueryId) (c : Callback) :
    e.Grows (e'.addCallback q c).2 := by
  have hq : e.Grows (e'.updateQuery (e'.root q) fun s =>
      { s with callbacks := s.callbacks ++ [c] }) :=
    Moves.updateQuery h _ (fun _ _ => ⟨rfl, fun _ h => h, by simp⟩) fun _ _ => rfl
  unfold Engine.addCallback
  dsimp only
  split
  · exact hq
  · exact hq.observe _

/-- An effect changes what fields show, but not which fields there are. -/
theorem applyEffect (h : e.Grows e') (i : HostId) (field : String) (effect : Effect) (s : Switch)
    (skip answers : Bool) : e.Grows (e'.applyEffect i field effect s skip answers) := by
  unfold Engine.applyEffect
  split
  · exact h
  · next host hhost =>
    have hform := Moves.updateHost (Moves.observe h (host.fields field false)) i
      (f := fun x => { x with form := (host.form.apply (host.fields field false).value effect s).1 })
      fun x hx => by
        obtain rfl : host = x := Option.some.inj (hhost.symm.trans hx)
        exact ⟨Form.sameIds_apply _ _ _ _, List.prefix_rfl, List.prefix_rfl⟩
    dsimp only
    refine Moves.schedule ?_ _
    split
    · exact hform.record _
    · exact hform

/-- A write changes values, but not which fields there are. -/
theorem write (h : e.Grows e') (i : HostId) (field : String) (v : Value) (automatic : Bool) :
    e.Grows (e'.write i field v automatic) := by
  unfold Engine.write
  split
  · exact h
  · next host hhost =>
    have hform := Moves.updateHost (Moves.observe h (host.fields field false)) i
      (f := fun x => { x with form := (host.form.write (host.fields field false).value v).1 })
      fun x hx => by
        obtain rfl : host = x := Option.some.inj (hhost.symm.trans hx)
        exact ⟨(Form.reports_write _ _ _).toSameIds, List.prefix_rfl, List.prefix_rfl⟩
    dsimp only
    refine Moves.schedule ?_ _
    split
    · exact hform.record _
    · exact hform

/-! ### Chains -/

theorem conditionLeaf (h : e.Grows e') (i : HostId) (field : String) (spec : Spec)
    (c : ConditionSpec) : e.Grows (e'.conditionLeaf i field spec c).2 := by
  cases c with
  | value v => exact h
  | test t label => exact h
  | node n => exact Grows.nodeLeaf h n

theorem attach (h : e.Grows e') (f : Facet) (c : Callback) : e.Grows (e'.attach f c).1 :=
  Grows.addCallback h _ _

theorem attachActions (h : e.Grows e') (f : Facet) (p : Polarity) (actions : List (Token Step))
    (args : Args) : e.Grows (e'.attachActions f p actions args).1 := by
  unfold Engine.attachActions
  refine Grows.attach ?_ _ _
  split
  · exact h.setDirect (fun _ _ _ => rfl) _ _
  · exact h.setDirect (fun _ _ _ => rfl) _ _
  · exact h

/-- The operations that take conditions add queries, conditions and subscriptions. -/
theorem conditionOp (h : e.Grows e') (f : Facet) (op : ChainOp Step) :
    e.Grows (e'.conditionOp f op).1 := by
  unfold Engine.conditionOp
  split
  · next c field =>
    have hleaf := Grows.conditionLeaf (Moves.observe h (Spec.read (field.getD formAlias))) f.host
      (field.getD formAlias) (Spec.read (field.getD formAlias)).value c
    exact Grows.keeps (Grows.addCondition hleaf _ _ _) (Moves.listenTo (Keeps.refl _) _ _)
  · exact Grows.keeps (Moves.observe h _) (Moves.listenTo (Keeps.refl _) _ _)
  · have hchild := Grows.addCondition (Moves.addQuery h (some f.query) fun _ => rfl) f.query
      (.query e'.queries.length) false
    exact Grows.keeps hchild (Moves.listenTo (Keeps.refl _) f .form)
  · exact h

/-- The operations that take junctions add clauses and callbacks. -/
theorem junctionOp (h : e.Grows e') (f : Facet) (op : ChainOp Step) :
    e.Grows (e'.junctionOp f op).1 := by
  unfold Engine.junctionOp
  split
  · exact (h.observe _).record _
  · exact h
  · exact h.addClause fun _ _ => rfl
  · exact h
  · exact Grows.attach h _ _
  · exact Grows.attachActions h _ _ _ _
  · exact h.setDirect (fun _ _ _ => rfl) _ _
  · exact Grows.attachActions h _ _ _ _
  · exact h

theorem chainOp (h : e.Grows e') (f : Facet) (op : ChainOp Step) :
    e.Grows (e'.chainOp f op).1 := by
  unfold Engine.chainOp
  split
  · exact h.keepRule _ _
  · exact h
  · exact Grows.setPaused h _ _
  · exact Grows.setPaused h _ _
  · split
    · exact Grows.conditionOp h _ _
    · exact Grows.junctionOp h _ _

/-- A chain does one operation and puts the others behind what follows from it. -/
theorem chain (h : e.Grows e') (f : Facet) (ops : List (ChainOp Step)) (name : Option String) :
    e.Grows (e'.chain f ops name) := by
  cases ops with
  | cons op ops => exact (Grows.chainOp h f op).schedule _
  | nil =>
    cases name with
    | none => exact h.reply _
    | some name => exact (h.keepRule f name).reply _

/-! ### Steps -/

theorem queryOp (h : e.Grows e') (q : QueryId) (op : QueryOp Step) : e.Grows (e'.queryOp q op) := by
  cases op with
  | condition node => exact (Grows.addCondition (Grows.nodeLeaf h node) _ _ _).schedule _
  | or => exact (h.addClause fun _ _ => rfl).schedule _
  | trigger => exact h.schedule _
  | pause => exact (Grows.setPaused h q true).schedule _
  | resume => exact (Grows.setPaused h q false).schedule _
  | negate failing => exact (h.setDirect (fun _ _ _ => rfl) q failing).schedule _
  | callback label run => exact (Grows.addCallback h q _).schedule _
  | evaluate => exact (h.observe _).reply _
  | same other => exact (Grows.named h other).reply _
  | parent other => exact (Grows.named h other).reply _
  | listen node label =>
    have hn := Grows.nodeLeaf h node
    simp only [Engine.queryOp]
    split
    · exact (hn.updateFlag _ _).reply _
    · exact hn.reply _
  | and => exact h.schedule _
  | inspect => exact h.schedule _
  | new => exact h
  | childOf parent => exact h
  | drop => exact h

theorem queryStep (h : e.Grows e') (name : String) (op : QueryOp Step) :
    e.Grows (e'.queryStep name op) := by
  unfold Engine.queryStep
  split
  · exact ((h.addQuery none fun _ => rfl).nameQuery _ _).reply _
  · exact ((Moves.addQuery (Grows.named h _) (some _) fun _ => rfl).nameQuery _ _).reply _
  · exact (h.updateSession _).reply _
  · exact Grows.queryOp ((Grows.named h name).schedule _) _ _

/-- A step about the host adds rules, subscriptions, actions, opposites and evaluations. -/
theorem hostStep (h : e.Grows e') (i : HostId) (host : Host) (s : Step) :
    e.Grows (e'.hostStep i host s) := by
  have htables : ∀ (actions : Host → Registry Action) (resolver : Host → Resolver)
      (evaluations : Host → EvaluationTable), e.Grows (e'.updateHost i fun host =>
        { host with
          actions := actions host, resolver := resolver host,
          evaluations := evaluations host }) :=
    fun _ _ _ => Moves.updateHost h i fun _ _ => ⟨.refl _, List.prefix_rfl, List.prefix_rfl⟩
  unfold Engine.hostStep
  split
  · exact (Grows.keeps h (Keeps.startRule (.refl _) _ _)).schedule _
  · exact h.schedule _
  · exact h.schedule _
  · exact (Grows.keeps (h.observe _) (Moves.subscribe (Keeps.refl _) _ _ _)).reply _
  · exact h.schedule _
  · exact (h.observe _).reply _
  · exact (h.observe _).reply _
  · exact (h.observe _).reply _
  · exact (h.observe _).reply _
  · exact (h.observe _).reply _
  · exact h.schedule _
  · exact (h.note _).schedule _
  · exact h.reply _
  · exact (Grows.keeps h (Keeps.negative (.refl _) _ _)).reply _
  · exact h.reply _
  · exact h.reply _
  · exact h.reply _
  · exact (htables (fun host => host.actions.insert _ _) Host.resolver Host.evaluations).reply _
  · exact (htables Host.actions (fun host => host.resolver.register _ _) Host.evaluations).reply _
  · split
    · exact (htables Host.actions Host.resolver fun host => host.evaluations.insert _).reply _
    · exact h.reply _
  · exact h.reply _
  · exact h
  · exact h
  · exact h
  · exact h

/-- A step adds to what is there; only names and rules of the session are dropped. -/
theorem performStep (h : e.Grows e') (s : Step) : e.Grows (e'.performStep s) := by
  unfold Engine.performStep
  split
  · exact Grows.queryStep h _ _
  · exact (h.updateFlag _ _).schedule _
  · exact (h.updateSession _).reply _
  · dsimp only
    split
    · exact (h.updateSession _).reply _
    · exact (h.updateSession _).reply _
  · split
    · exact Grows.hostStep (h.schedule _) _ _ _
    · exact h.reply _

end Grows

/-! ## Tasks -/

/-- No task but a trigger changes the last result of a query. -/
theorem grows_perform (e : Engine) {t : Task} (ht : t.isTrigger = false) :
    e.Grows (e.perform t) := by
  have h := Grows.refl e
  have k := Keeps.refl e
  unfold perform
  split
  · exact Grows.performStep h _
  · exact h.record _
  · exact h.reply _
  · exact h.reply _
  · exact h
  · exact Grows.chain h _ _ _
  · simp [Task.isTrigger] at ht
  · exact h
  · exact h.schedule _
  · exact Grows.keeps h (Keeps.deliver k _ _ _ _)
  · split
    · exact h.reply _
    · exact h
  · exact Grows.keeps h (Keeps.dispatch k _ _ _ _ _ _ _)
  · exact h.schedule _
  · exact Grows.applyEffect h _ _ _ _ _ _
  · exact Grows.write h _ _ _ _
  · exact h.record _
  · exact Grows.keeps h (Keeps.notify k _ _ _)
  · exact h
  · exact Grows.keeps h (Keeps.inform (k.schedule _) _ _ _ _)
  · exact h
  · exact (h.record _).schedule _
  · split
    · exact h.schedule _
    · exact h.schedule _

/-- `e'` is `e` with more to do and with larger queries and hosts, and perhaps other results. -/
structure Extends (e e' : Engine) : Prop where
  agenda : e.agenda <:+ e'.agenda
  query : ∀ q s, e.query? q = some s → ∃ t, e'.query? q = some t ∧ s.Grows t
  host : ∀ h s, e.host? h = some s → ∃ t, e'.host? h = some t ∧ s.Grows t

/-- Where only growth happens, no round starts. -/
theorem Grows.extends {e e' : Engine} (h : e.Grows e') : e.Extends e' := ⟨h.agenda, h.query, h.host⟩

/-- A trigger changes at most the last result of a query. -/
theorem extends_trigger (e : Engine) (q : QueryId) : e.Extends (e.trigger q) := by
  have h : e.Extends e := (Grows.refl e).extends
  unfold trigger
  dsimp only
  split
  · exact ⟨h.agenda, h.query, h.host⟩
  · split
    · exact ⟨h.agenda, h.query, h.host⟩
    · refine ⟨List.suffix_append _ _, fun i s hs => ?_, h.host⟩
      change ∃ t, (e.updateQuery _ _).query? i = some t ∧ _
      rw [query?_updateQuery]
      split
      · rw [hs]
        exact ⟨_, rfl, rfl, fun _ h => h, List.prefix_rfl⟩
      · exact ⟨s, hs, .refl s⟩

/-- Every task leaves the rest of the agenda alone, and only adds to queries and hosts. -/
theorem extends_perform (e : Engine) (t : Task) : e.Extends (e.perform t) := by
  cases ht : t.isTrigger with
  | false => exact (grows_perform e ht).extends
  | true =>
    obtain ⟨q, rfl⟩ : ∃ q, t = .trigger q := by
      cases t <;> simp [Task.isTrigger] at ht
      exact ⟨_, rfl⟩
    exact extends_trigger e q

end Engine

end FormRules
