import FormRules.Proofs.Formulas
import FormRules.Proofs.Rounds

/-!
# Chains that build formulas

A chain of operations builds a formula from left to right (`Formula.ops`): a condition joins the last
clause of the query at hand, a bracket opens a query of its own and comes back to the one around it
when it is closed, and an OR starts a new clause. While this goes on, the query at hand gains
conditions and all others keep theirs (`Engine.Builds`), and the query around a bracket stays in use,
so that closing the bracket finds it.

Where no bracket is open, brackets may be closed all the same (`Formula.Padded`), which changes
nothing. `Engine.evaluate_chain` says what comes out: the chain ends at the query it began with, whose
clauses are the formula, and evaluating it decides the formula, condition by condition from left to
right.
-/

namespace FormRules

/-- A condition of a chain, and the field that it is on; without a field it is on the whole form. -/
abbrev Condition := ConditionSpec × Option String

namespace Formula

mutual

/-- The operations that build an atom. -/
def Atom.ops : Atom Condition → List (ChainOp Step)
  | .cond c => [.when c.1 c.2]
  | .bracket x => .openBracket :: (x.ops ++ [.closeBracket])

/-- The operations that build a clause. -/
def Clause.ops : Clause Condition → List (ChainOp Step)
  | .one a => a.ops
  | .and a c => a.ops ++ .and :: c.ops

/-- The operations that build a formula. -/
def ops : Formula Condition → List (ChainOp Step)
  | .one c => c.ops
  | .or c x => c.ops ++ .or :: x.ops

end

end Formula

/-- After `put`, a name finds its new entry, and every other name the entry it had. -/
theorem Roster.lookup_put {β : Type} (a b : String) (x : β) (xs : List (String × β)) :
    (put Prod.fst (a, x) xs).lookup b = if b = a then some x else xs.lookup b := by
  induction xs with
  | nil => by_cases h : b = a <;> simp [put, List.lookup_cons, h, beq_eq_false_iff_ne.2]
  | cons y ys ih =>
    obtain ⟨c, z⟩ := y
    unfold put
    split
    · next h =>
      obtain rfl : c = a := h
      by_cases hb : b = c <;> simp [List.lookup_cons, hb, beq_eq_false_iff_ne.2]
    · next h =>
      have hca : c ≠ a := h
      rw [List.lookup_cons, List.lookup_cons, ih]
      by_cases hb : b = c
      · subst hb
        simp [hca]
      · simp [beq_eq_false_iff_ne.2 hb]

namespace Engine

/-! ## Small changes -/

/-- Listening changes nothing but hosts and the log. -/
theorem listenTo_eq (e : Engine) (f : Facet) (spec : Spec) :
    ∃ hosts log, e.listenTo f spec = { e with hosts, log } := by
  unfold listenTo subscribe
  split
  · exact ⟨e.hosts, e.log, rfl⟩
  · split
    · exact ⟨e.hosts, e.log, rfl⟩
    · exact ⟨_, _, rfl⟩

/-- Flags are not among the named queries. -/
theorem queries_session_updateFlag (e : Engine) (ref : FlagRef) (f : Flag → Flag) :
    (e.updateFlag ref f).session.queries = e.session.queries := by
  simp only [session, updateFlag, List.getElem?_modify]
  split <;> cases e.sessions[e.current]? <;> rfl

/-- Naming a query puts its name into the session at hand. -/
theorem queries_session_nameQuery {e : Engine} (h : e.current < e.sessions.length) (name : String)
    (q : QueryId) : (e.nameQuery name q).session.queries =
      Roster.put Prod.fst (name, q) e.session.queries := by
  simp [session, nameQuery, updateSession, List.getElem?_eq_getElem h]

/-! ## Building -/

/-- `e'` is `e` after conditions and clauses were added to the query `q`: the other queries keep
theirs, and names stay with the queries that they have. -/
structure Builds (q : QueryId) (e e' : Engine) : Prop where
  grows : e.Grows e'
  agenda : e'.agenda = e.agenda
  clauses : ∀ p s, p ≠ q → e.query? p = some s → ∃ t, e'.query? p = some t ∧ t.clauses = s.clauses
  current : e'.current = e.current
  sessions : e'.sessions.length = e.sessions.length
  names : ∀ name p, e.session.queries.lookup name = some p →
    e'.session.queries.lookup name = some p

namespace Builds

variable {q p : QueryId} {e e' e'' : Engine}

/-- What is added to `p` afterwards is nothing to the other queries, if `p` is not among them. -/
theorem trans_of_ne (h : Builds q e e') (h' : Builds p e' e'')
    (hp : ∀ r s, r ≠ q → e.query? r = some s → r ≠ p) : Builds q e e'' where
  grows := Moves.trans h.grows h'.grows
  agenda := h'.agenda.trans h.agenda
  clauses := by
    intro r s hr hs
    obtain ⟨t, ht, hst⟩ := h.clauses r s hr hs
    obtain ⟨u, hu, htu⟩ := h'.clauses r t (hp r s hr hs) ht
    exact ⟨u, hu, htu.trans hst⟩
  current := h'.current.trans h.current
  sessions := h'.sessions.trans h.sessions
  names name r hr := h'.names name r (h.names name r hr)

/-- One may build on at the same query. -/
theorem trans (h : Builds q e e') (h' : Builds q e' e'') : Builds q e e'' :=
  h.trans_of_ne h' fun _ _ hr _ => hr

/-- Changes of hosts and the log. -/
theorem of_eq (h : Builds q e e') (hgrows : e'.Grows e'') (ha : e''.agenda = e'.agenda)
    (hq : e''.queries = e'.queries) (hcurrent : e''.current = e'.current)
    (hsessions : e''.sessions = e'.sessions) : Builds q e e'' := by
  refine h.trans ⟨hgrows, ha, fun p s _ hs => ⟨s, ?_, rfl⟩, hcurrent, by rw [hsessions], ?_⟩
  · rwa [query?, hq]
  · intro name p hp
    rwa [session, hcurrent, hsessions]

theorem refl (q : QueryId) (e : Engine) : Builds q e e :=
  ⟨Grows.refl e, rfl, fun _ s _ hs => ⟨s, hs, rfl⟩, rfl, rfl, fun _ _ hp => hp⟩

/-- A subscription builds nothing. -/
theorem listenTo (h : Builds q e e') (f : Facet) (spec : Spec) :
    Builds q e (e'.listenTo f spec) := by
  have hgrows : e'.Grows (e'.listenTo f spec) :=
    Grows.keeps (Grows.refl e') (Moves.listenTo (Keeps.refl e') f spec)
  obtain ⟨hosts, log, heq⟩ := listenTo_eq e' f spec
  rw [heq] at hgrows ⊢
  exact h.of_eq hgrows rfl rfl rfl rfl

/-- Reading builds nothing. -/
theorem observe {α : Type} (h : Builds q e e') (x : Traced α) : Builds q e (e'.observe x).2 :=
  h.of_eq ((Grows.refl e').observe x) rfl rfl rfl rfl

end Builds

variable {e : Engine} {h : HostId} {q : QueryId}

/-! ### Conditions -/

/-- Observing a leaf changes a flag, or nothing at all. -/
theorem observeLeaf_cases (e : Engine) (q : QueryId) (observable : Bool) (leaf : Leaf) :
    e.observeLeaf q observable leaf = e ∨
      ∃ ref f, e.observeLeaf q observable leaf = e.updateFlag ref f := by
  unfold observeLeaf
  split
  · split
    · exact Or.inr ⟨_, _, rfl⟩
    · exact Or.inl rfl
  · exact Or.inl rfl

/-- A condition joins the last clause of its query, and other queries keep theirs. -/
theorem query?_addCondition (e : Engine) (q : QueryId) (leaf : Leaf) (observable : Bool)
    (p : QueryId) : (e.addCondition q leaf observable).query? p =
      if q = p then (e.query? p).map (·.addLeaf leaf) else e.query? p := by
  have hquery : (e.updateQuery q (·.addLeaf leaf)).query? p =
      if q = p then (e.query? p).map (·.addLeaf leaf) else e.query? p := query?_updateQuery e q p _
  rw [← hquery]
  change ((e.updateQuery q (·.addLeaf leaf)).observeLeaf q observable leaf).query? p = _
  rcases observeLeaf_cases (e.updateQuery q (·.addLeaf leaf)) q observable leaf with heq | ⟨_, _, heq⟩
  · rw [heq]
  · rw [heq]
    rfl

/-- Adding a condition builds at its query only. -/
theorem builds_addCondition (e : Engine) (q : QueryId) (leaf : Leaf) (observable : Bool) :
    Builds q e (e.addCondition q leaf observable) := by
  have hgrows := Grows.addCondition (Grows.refl e) q leaf observable
  have hclauses : ∀ p s, p ≠ q → e.query? p = some s →
      ∃ t, (e.addCondition q leaf observable).query? p = some t ∧ t.clauses = s.clauses :=
    fun p s hp hs => ⟨s, by rw [query?_addCondition, if_neg (Ne.symm hp), hs], rfl⟩
  have hcases := observeLeaf_cases (e.updateQuery q (·.addLeaf leaf)) q observable leaf
  change e.addCondition q leaf observable = _ ∨
    ∃ _ _, e.addCondition q leaf observable = _ at hcases
  rcases hcases with heq | ⟨ref, f, heq⟩
  · rw [heq] at hgrows hclauses ⊢
    exact ⟨hgrows, rfl, hclauses, rfl, rfl, fun _ _ hp => hp⟩
  · rw [heq] at hgrows hclauses ⊢
    refine ⟨hgrows, rfl, hclauses, rfl, by simp [updateFlag, updateQuery], fun name p hp => ?_⟩
    rw [queries_session_updateFlag]
    exact hp

/-- The query of a name is kept under it. -/
theorem builds_named (hsession : e.current < e.sessions.length) (q : QueryId) (name : String) :
    Builds q e (e.named name).2 ∧
      (e.named name).2.session.queries.lookup name = some (e.named name).1 := by
  have hgrows := Grows.named (Grows.refl e) name
  revert hgrows
  unfold named
  split
  · next p hp => exact fun _ => ⟨.refl q e, hp⟩
  · next hnone =>
    intro hgrows
    have hnames : ((e.addQuery none).2.nameQuery name e.queries.length).session.queries =
        Roster.put Prod.fst (name, e.queries.length) e.session.queries :=
      queries_session_nameQuery (e := (e.addQuery none).2) hsession name _
    refine ⟨⟨hgrows, rfl, fun p s _ hs => ⟨s, ?_, rfl⟩, rfl, ?_, fun other p hp => ?_⟩, ?_⟩
    · have hlt : p < e.queries.length := (List.getElem?_eq_some_iff.1 hs).1
      change (e.addQuery none).2.query? p = some s
      rw [query?_addQuery, if_neg (Nat.ne_of_lt hlt), hs]
    · simp [nameQuery, updateSession, addQuery]
    · change ((e.addQuery none).2.nameQuery name e.queries.length).session.queries.lookup other = _
      have hother : other ≠ name := by
        rintro rfl
        simp [hnone] at hp
      rw [hnames, Roster.lookup_put, if_neg hother, hp]
    · change ((e.addQuery none).2.nameQuery name e.queries.length).session.queries.lookup name = _
      rw [hnames, Roster.lookup_put, if_pos rfl]
      rfl

/-- What a condition is in the engine, on the host `h`. -/
def leafOf (e : Engine) (h : HostId) (c : Condition) : Leaf :=
  (e.conditionLeaf h (c.2.getD formAlias) (Spec.lenient (c.2.getD formAlias)) c.1).1.1

/-- `leaf` is what the condition is, and stays: if it is the query of a name, then the name has
one. -/
structure IsLeaf (e : Engine) (h : HostId) (c : Condition) (leaf : Leaf) : Prop where
  eq : leaf = e.leafOf h c
  bound : ∀ name, c.1 = .node (.query name) → ∃ p, e.session.queries.lookup name = some p

/-- A leaf stays that of its condition while formulas are built. -/
theorem IsLeaf.mono {e' : Engine} {c : Condition} {leaf : Leaf} (hleaf : e.IsLeaf h c leaf)
    (hb : Builds q e e') : e'.IsLeaf h c leaf := by
  refine ⟨?_, fun name hc => ?_⟩
  · rw [hleaf.eq]
    obtain ⟨c, field⟩ := c
    cases c with
    | value v => rfl
    | test t label => rfl
    | node n =>
      cases n with
      | flag name observable logged =>
        simp only [leafOf, conditionLeaf, nodeLeaf, hb.current]
      | query name =>
        obtain ⟨p, hp⟩ := hleaf.bound name rfl
        simp only [leafOf, conditionLeaf, nodeLeaf, named, hp, hb.names name p hp]
  · obtain ⟨p, hp⟩ := hleaf.bound name hc
    exact ⟨p, hb.names name p hp⟩

/-- What a condition is, is known once the query of its name is. -/
theorem builds_conditionLeaf (hsession : e.current < e.sessions.length) (q : QueryId) (h : HostId)
    (c : Condition) :
    Builds q e (e.conditionLeaf h (c.2.getD formAlias) (Spec.lenient (c.2.getD formAlias)) c.1).2 ∧
      (e.conditionLeaf h (c.2.getD formAlias) (Spec.lenient (c.2.getD formAlias)) c.1).2.IsLeaf h c
        (e.leafOf h c) := by
  obtain ⟨c, field⟩ := c
  cases c with
  | value v => exact ⟨.refl q e, rfl, by simp⟩
  | test t label => exact ⟨.refl q e, rfl, by simp⟩
  | node n =>
    cases n with
    | flag name observable logged => exact ⟨.refl q e, rfl, by simp⟩
    | query name =>
      obtain ⟨hb, hname⟩ := builds_named hsession q name
      refine ⟨hb, ?_, fun other hother => ?_⟩
      · change Leaf.query (e.named name).1 = .query ((e.named name).2.named name).1
        conv => rhs; rw [named, hname]
      · cases hother
        exact ⟨_, hname⟩

theorem query?_listenTo (e : Engine) (f : Facet) (spec : Spec) (p : QueryId) :
    (e.listenTo f spec).query? p = e.query? p := by
  obtain ⟨hosts, log, heq⟩ := listenTo_eq e f spec
  rw [heq]
  rfl

/-- A leaf is added to the last clause. -/
theorem Query.clauses_addLeaf {s : Query} {init : List (List Leaf)} {clause : List Leaf}
    (hc : s.clauses = init ++ [clause]) (leaf : Leaf) :
    (s.addLeaf leaf).clauses = init ++ [clause ++ [leaf]] := by
  simp [Query.addLeaf, hc, List.modify_eq_take_cons_drop]

/-- A condition subscribes the query to the group of its field, and adds its leaf. -/
theorem conditionOp_when (e : Engine) (h : HostId) (q : QueryId) (c : Condition) :
    e.conditionOp ⟨.condition, h, q⟩ (.when c.1 c.2) =
      let field := c.2.getD formAlias
      let e := (e.observe (Spec.read field)).2
      let found := e.conditionLeaf h field (Spec.lenient field) c.1
      ((found.2.addCondition q (e.leafOf h c) found.1.2).listenTo ⟨.condition, h, q⟩
        (Spec.lenient field), ⟨.junction, h, q⟩) := by
  simp only [leafOf, ← Spec.value_read]
  rfl

/-- A condition joins the last clause. -/
theorem builds_when (hsession : e.current < e.sessions.length) {s : Query}
    (hs : e.query? q = some s) {init : List (List Leaf)} {clause : List Leaf}
    (hc : s.clauses = init ++ [clause]) (c : Condition) :
    ∃ e' leaf, e.conditionOp ⟨.condition, h, q⟩ (.when c.1 c.2) = (e', ⟨.junction, h, q⟩) ∧
      Builds q e e' ∧ (∃ t, e'.query? q = some t ∧ t.clauses = init ++ [clause ++ [leaf]]) ∧
      e'.IsLeaf h c leaf := by
  have hobserve : ∀ p, Builds p e (e.observe (Spec.read (c.2.getD formAlias))).2 :=
    fun p => (Builds.refl p e).observe _
  have hleaf := fun p => builds_conditionLeaf
    (e := (e.observe (Spec.read (c.2.getD formAlias))).2) hsession p h c
  rw [conditionOp_when]
  dsimp only
  obtain ⟨t, ht, hclauses⟩ := ((hobserve (q + 1)).trans (hleaf (q + 1)).1).clauses q s
    (Nat.ne_of_lt (Nat.lt_succ_self q)) hs
  refine ⟨_, (e.observe (Spec.read (c.2.getD formAlias))).2.leafOf h c, rfl, ?_,
    ⟨t.addLeaf _, ?_, Query.clauses_addLeaf (hclauses.trans hc) _⟩, ?_⟩
  · exact (((hobserve q).trans (hleaf q).1).trans (builds_addCondition _ _ _ _)).listenTo _ _
  · rw [query?_listenTo, query?_addCondition, if_pos rfl, ht]
    rfl
  · exact (hleaf q).2.mono (Builds.listenTo (builds_addCondition _ _ _ _) _ _)

/-- A bracket is a new query, which joins the last clause. -/
theorem builds_openBracket {s : Query} (hs : e.query? q = some s) {init : List (List Leaf)}
    {clause : List Leaf} (hc : s.clauses = init ++ [clause]) :
    ∃ e', e.conditionOp ⟨.condition, h, q⟩ .openBracket =
        (e', ⟨.condition, h, e.queries.length⟩) ∧
      Builds q e e' ∧ e'.query? e.queries.length = some { parent := some q } ∧
      ∃ t, e'.query? q = some t ∧
        t.clauses = init ++ [clause ++ [.query e.queries.length]] := by
  have hq : q < e.queries.length := (List.getElem?_eq_some_iff.1 hs).1
  have hnew : ∀ p s, e.query? p = some s → (e.addQuery (some q)).2.query? p = some s := by
    intro p s hs
    have hp : p < e.queries.length := (List.getElem?_eq_some_iff.1 hs).1
    rw [query?_addQuery, if_neg (Nat.ne_of_lt hp), hs]
  have hadd : Builds q e (e.addQuery (some q)).2 :=
    ⟨(Grows.refl e).addQuery (some q) fun _ => rfl, rfl, fun p s _ hs => ⟨s, hnew p s hs, rfl⟩, rfl,
      rfl, fun _ _ hp => hp⟩
  refine ⟨((e.addQuery (some q)).2.addCondition q (.query e.queries.length) false).listenTo
    ⟨.condition, h, q⟩ .form, rfl, ?_, ?_, s.addLeaf (.query e.queries.length), ?_,
    Query.clauses_addLeaf hc _⟩
  · exact (hadd.trans (builds_addCondition _ _ _ _)).listenTo _ _
  · rw [query?_listenTo, query?_addCondition, if_neg (Nat.ne_of_lt hq), query?_addQuery, if_pos rfl]
  · rw [query?_listenTo, query?_addCondition, if_pos rfl, hnew q s hs]
    rfl

/-- An OR adds an empty clause to its query, and builds nothing elsewhere. -/
theorem builds_addClause {s : Query} (hs : e.query? q = some s) : Builds q e (e.addClause q) ∧
    (e.addClause q).query? q = some { s with clauses := s.clauses ++ [[]] } := by
  have hquery : ∀ p, (e.addClause q).query? p =
      if q = p then (e.query? p).map fun s => { s with clauses := s.clauses ++ [[]] }
      else e.query? p := fun p => query?_updateQuery e q p _
  refine ⟨⟨(Grows.refl e).addClause fun _ _ => rfl, rfl, fun p s hp hs => ⟨s, ?_, rfl⟩, rfl, rfl,
    fun _ _ hp => hp⟩, ?_⟩
  · rw [hquery, if_neg (Ne.symm hp), hs]
  · rw [hquery, if_pos rfl, hs]
    rfl

/-! ### The way back -/

/-- The host has the rule that begins with the query `r`, and a task keeps the host in use. -/
structure Hosts (e : Engine) (h : HostId) (r : QueryId) : Prop where
  listed : ∃ host, e.host? h = some host ∧ r ∈ host.queries
  held : ∃ t ∈ e.agenda, h ∈ t.hosts

/-- What a host refers to is in use. -/
theorem Hosts.holdsDirectly {r : QueryId} (hr : e.Hosts h r) : e.holdsDirectly r = true := by
  obtain ⟨host, hhost, hlisted⟩ := hr.listed
  obtain ⟨t, ht, hheld⟩ := hr.held
  have hinUse : e.hostInUse h = true := by
    simp only [hostInUse, Bool.or_eq_true, List.any_eq_true]
    exact Or.inr ⟨t, ht, by simpa using hheld⟩
  simp only [Engine.holdsDirectly, Bool.or_eq_true, List.any_eq_true]
  refine Or.inl (Or.inr ⟨(host, h), List.mk_mem_zipIdx_iff_getElem?.2 hhost, ?_⟩)
  simp [Host.heldQueries, hlisted, hinUse]

/-- Hosts keep what they refer to while formulas are built. -/
theorem Hosts.mono {r : QueryId} {e' : Engine} (hr : e.Hosts h r) (hb : Builds q e e') :
    e'.Hosts h r := by
  obtain ⟨host, hhost, hlisted⟩ := hr.listed
  obtain ⟨host', hhost', hgrows⟩ := hb.grows.host h host hhost
  exact ⟨⟨host', hhost', hgrows.queries.subset hlisted⟩, hb.agenda ▸ hr.held⟩

/-- Nodes of a tree stay where they are when queries are added. -/
theorem IsNode.mono {r p : QueryId} {n : Nat} {e' : Engine} (hp : e.IsNode r n p)
    (hgrows : e.Grows e') : e'.IsNode r n p := by
  induction hp with
  | root => exact .root
  | bracket _ hs hq ht parent ih =>
    obtain ⟨s', hs', hss'⟩ := hgrows.query _ _ hs
    obtain ⟨t', ht', htt'⟩ := hgrows.query _ _ ht
    exact .bracket ih hs' (hss'.mentions _ hq) ht' (htt'.parent.trans parent)

/-- A chain is building at the query `q`, which is a bracket of a rule of the host, or the rule
itself. -/
structure Building (e : Engine) (h : HostId) (q : QueryId) : Prop where
  node : ∃ r n, e.Hosts h r ∧ e.IsNode r n q
  session : e.current < e.sessions.length

/-- The query at hand may be built at while another one is. -/
theorem Building.mono {p : QueryId} {e' : Engine} (hq : e.Building h q) (hb : Builds p e e') :
    e'.Building h q := by
  obtain ⟨r, n, hr, hnode⟩ := hq.node
  exact ⟨⟨r, n, hr.mono hb, hnode.mono hb.grows⟩, by rw [hb.current, hb.sessions]; exact hq.session⟩

/-- A bracket finds the query around it. -/
theorem Building.parent? (hq : e.Building h q) {p : QueryId} {t : Query}
    (ht : e.query? p = some t) (hparent : t.parent = some q) : e.parent? p = some q := by
  obtain ⟨r, n, hr, hnode⟩ := hq.node
  simp [Engine.parent?, ht, hparent, queryInUse, hnode.inUse hr.holdsDirectly]

/-! ### Formulas -/

/-- The engine and the facet after operations. -/
def build (e : Engine) (f : Facet) (ops : List (ChainOp Step)) : Engine × Facet :=
  ops.foldl (fun s op => ((s.1.chainOp s.2 op).1, (s.1.chainOp s.2 op).2.1)) (e, f)

/-- A chain is built by building its parts, each with the facet that the one before it ends at. -/
theorem build_append (e : Engine) (f : Facet) (ops ops' : List (ChainOp Step)) :
    e.build f (ops ++ ops') = (e.build f ops).1.build (e.build f ops).2 ops' := by
  rw [build, List.foldl_append]
  rfl

/-- The operations take the engine to `e'`, where the query `q` has these clauses, and come back to
the query. -/
structure Built (e : Engine) (h : HostId) (q : QueryId) (ops : List (ChainOp Step)) (e' : Engine)
    (clauses : List (List Leaf)) : Prop where
  result : e.build ⟨.condition, h, q⟩ ops = (e', ⟨.junction, h, q⟩)
  builds : Builds q e e'
  query : ∃ t, e'.query? q = some t ∧ t.clauses = clauses

/-- What was built before stays, while the chain goes on at the same query. -/
theorem Built.append {e' e'' : Engine} {ops ops' : List (ChainOp Step)} {op : ChainOp Step}
    {clauses clauses' : List (List Leaf)} (hbuilt : e.Built h q ops e' clauses) {e₁ : Engine}
    (hop : e'.chainOp ⟨.junction, h, q⟩ op = (e₁, ⟨.condition, h, q⟩, []))
    (hb : Builds q e' e₁) (hbuilt' : e₁.Built h q ops' e'' clauses') :
    e.Built h q (ops ++ op :: ops') e'' clauses' := by
  refine ⟨?_, (hbuilt.builds.trans hb).trans hbuilt'.builds, hbuilt'.query⟩
  rw [build_append, hbuilt.result, build, List.foldl_cons, hop]
  exact hbuilt'.result

/-- At a query without a parent, closing brackets changes nothing. -/
theorem build_closeBrackets (hroot : e.isRoot q = true) (k : Nat) (ops : List (ChainOp Step)) :
    e.build ⟨.junction, h, q⟩ (List.replicate k .closeBracket ++ ops) =
      e.build ⟨.junction, h, q⟩ ops := by
  have hparent : e.parent? q = none := Option.isNone_iff_eq_none.1 hroot
  induction k with
  | zero => rfl
  | succ k ih =>
    rw [List.replicate_succ, List.cons_append, build, List.foldl_cons]
    simp only [chainOp, junctionOp, hparent, Option.getD_none]
    exact ih

/-- Building moves no query to another parent. -/
theorem Builds.parent {p : QueryId} {e' : Engine} (hb : Builds p e e') {s t : Query}
    (hs : e.query? q = some s) (ht : e'.query? q = some t) : t.parent = s.parent := by
  obtain ⟨t', ht', hgrows⟩ := hb.grows.query q s hs
  obtain rfl : t' = t := Option.some.inj (ht'.symm.trans ht)
  exact hgrows.parent

/-- A query without a parent is a root. -/
theorem isRoot_of_parent {s : Query} (hs : e.query? q = some s) (hroot : s.parent = none) :
    e.isRoot q = true := by
  simp [isRoot, Engine.parent?, hs, hroot]

end Engine

namespace Formula

open Engine

mutual

/-- An atom joins the last clause. A bracket that is closed leads back to the query around it, which
is still in use. -/
theorem Atom.exists_built (a : Atom Condition) {e : Engine} {h : HostId} {q : QueryId} {s : Query}
    (hq : e.Building h q) (hs : e.query? q = some s) {init : List (List Leaf)}
    {clause : List Leaf} (hc : s.clauses = init ++ [clause]) :
    ∃ e' leaf, e.Built h q a.ops e' (init ++ [clause ++ [leaf]]) ∧
      a.Spelled e' (e'.IsLeaf h) q leaf := by
  cases a with
  | cond c =>
    obtain ⟨e', leaf, hop, hb, hquery, hleaf⟩ := builds_when (h := h) hq.session hs hc c
    refine ⟨e', leaf, ⟨?_, hb, hquery⟩, hleaf⟩
    simp [Atom.ops, build, chainOp, hop]
  | bracket x =>
    obtain ⟨e₁, hop, hb₁, hchild, t₁, ht₁, hc₁⟩ := builds_openBracket (h := h) hs hc
    have hlt : q < e.queries.length := (List.getElem?_eq_some_iff.1 hs).1
    have hmentions : t₁.mentions e.queries.length = true :=
      Query.mentions_iff.2 ⟨clause ++ [.query e.queries.length], by simp [hc₁], by simp⟩
    have hq₁ : e₁.Building h e.queries.length := by
      obtain ⟨r, n, hr, hnode⟩ := (hq.mono hb₁).node
      exact ⟨⟨r, n + 1, hr, .bracket hnode ht₁ hmentions hchild rfl⟩, (hq.mono hb₁).session⟩
    obtain ⟨e₂, clauses, hbuilt, hx⟩ := exists_built x hq₁ hchild (List.nil_append _).symm
    obtain ⟨t₂, ht₂, hc₂⟩ := hbuilt.query
    obtain ⟨t, ht, hc⟩ := hbuilt.builds.clauses q t₁ (Nat.ne_of_lt hlt) ht₁
    have hb : Builds q e e₂ := hb₁.trans_of_ne hbuilt.builds fun r s _ hs =>
      Nat.ne_of_lt (List.getElem?_eq_some_iff.1 hs).1
    have hparent : e₂.parent? e.queries.length = some q := by
      obtain ⟨t', ht', hgrows⟩ := hbuilt.builds.grows.query _ _ hchild
      exact (hq.mono hb).parent? ht' hgrows.parent
    refine ⟨e₂, .query e.queries.length, ⟨?_, hb, t, ht, hc.trans hc₁⟩,
      ⟨e.queries.length, t₂, rfl, hlt, ht₂, ?_⟩⟩
    · have hopen : e.build ⟨.condition, h, q⟩ (Atom.bracket x).ops =
          e₁.build ⟨.condition, h, e.queries.length⟩ (x.ops ++ [.closeBracket]) := by
        simp [Atom.ops, build, chainOp, hop]
      rw [hopen, build_append, hbuilt.result]
      simp [build, chainOp, junctionOp, hparent]
    · rw [hc₂, List.nil_append]
      exact hx

/-- A clause joins the last clause. -/
theorem Clause.exists_built (c : Clause Condition) {e : Engine} {h : HostId} {q : QueryId}
    {s : Query} (hq : e.Building h q) (hs : e.query? q = some s) {init : List (List Leaf)}
    {clause : List Leaf} (hc : s.clauses = init ++ [clause]) :
    ∃ e' leaves, e.Built h q c.ops e' (init ++ [clause ++ leaves]) ∧
      c.Spelled e' (e'.IsLeaf h) q leaves := by
  cases c with
  | one a =>
    obtain ⟨e', leaf, hbuilt, ha⟩ := Atom.exists_built a hq hs hc
    exact ⟨e', [leaf], hbuilt, leaf, rfl, ha⟩
  | and a c =>
    obtain ⟨e₁, leaf, hbuilt₁, ha⟩ := Atom.exists_built a hq hs hc
    obtain ⟨t₁, ht₁, hc₁⟩ := hbuilt₁.query
    obtain ⟨e₂, leaves, hbuilt₂, hc₂⟩ := Clause.exists_built c (hq.mono hbuilt₁.builds) ht₁ hc₁
    refine ⟨e₂, leaf :: leaves, ?_, leaf, leaves, rfl, ?_, hc₂⟩
    · rw [List.append_assoc] at hbuilt₂
      exact hbuilt₁.append rfl (.refl q e₁) hbuilt₂
    · exact ha.mono (fun _ _ hleaf => hleaf.mono hbuilt₂.builds) fun p s hp hs =>
        hbuilt₂.builds.clauses p s (Nat.ne_of_gt hp) hs

/-- A formula takes the place of an empty last clause. -/
theorem exists_built (x : Formula Condition) {e : Engine} {h : HostId} {q : QueryId}
    {s : Query} (hq : e.Building h q) (hs : e.query? q = some s) {init : List (List Leaf)}
    (hc : s.clauses = init ++ [[]]) :
    ∃ e' clauses, e.Built h q x.ops e' (init ++ clauses) ∧
      x.Spelled e' (e'.IsLeaf h) q clauses := by
  cases x with
  | one c =>
    obtain ⟨e', leaves, hbuilt, hc⟩ := Clause.exists_built c hq hs hc
    exact ⟨e', [leaves], hbuilt, leaves, rfl, hc⟩
  | or c x =>
    obtain ⟨e₁, leaves, hbuilt₁, hc₁⟩ := Clause.exists_built c hq hs hc
    obtain ⟨t₁, ht₁, hclauses₁⟩ := hbuilt₁.query
    obtain ⟨hor, ht₂⟩ := builds_addClause ht₁
    have hclauses₂ : t₁.clauses ++ [[]] = (init ++ [leaves]) ++ [[]] := by
      rw [hclauses₁, List.nil_append]
    obtain ⟨e₂, rest, hbuilt₂, hx⟩ :=
      exists_built x ((hq.mono hbuilt₁.builds).mono hor) ht₂ hclauses₂
    have hb : Builds q e₁ e₂ := hor.trans hbuilt₂.builds
    refine ⟨e₂, leaves :: rest, ?_, leaves, rest, rfl, ?_, hx⟩
    · rw [List.append_assoc] at hbuilt₂
      exact hbuilt₁.append rfl hor hbuilt₂
    · exact hc₁.mono (fun _ _ hleaf => hleaf.mono hb) fun p s hp hs =>
        hb.clauses p s (Nat.ne_of_gt hp) hs

end

end Formula

/-! ### Brackets that are closed too often -/

namespace Formula

open Engine

/-- Operations of a clause, with brackets closed too often behind its atoms. -/
inductive Clause.Padded : Clause Condition → List (ChainOp Step) → Prop
  | one (a : Atom Condition) (k : Nat) :
      Clause.Padded (.one a) (a.ops ++ List.replicate k .closeBracket)
  | and (a : Atom Condition) (k : Nat) {c : Clause Condition} {ops : List (ChainOp Step)}
      (h : c.Padded ops) :
      Clause.Padded (.and a c) (a.ops ++ (List.replicate k .closeBracket ++ .and :: ops))

/-- Operations of a formula, with brackets closed too often wherever none is open. -/
inductive Padded : Formula Condition → List (ChainOp Step) → Prop
  | one {c : Clause Condition} {ops : List (ChainOp Step)} (h : c.Padded ops) : Padded (.one c) ops
  | or {c : Clause Condition} {x : Formula Condition} {ops ops' : List (ChainOp Step)}
      (h : c.Padded ops) (h' : Padded x ops') : Padded (.or c x) (ops ++ .or :: ops')

/-- The chain of a clause as it is written has no brackets to spare. -/
theorem Clause.padded_ops (c : Clause Condition) : c.Padded c.ops := by
  cases c with
  | one a => simpa [Clause.ops] using Clause.Padded.one a 0
  | and a c => exact Clause.Padded.and a 0 (Clause.padded_ops c)

/-- The chain of a formula as it is written has no brackets to spare. -/
theorem padded_ops (x : Formula Condition) : x.Padded x.ops := by
  cases x with
  | one c => exact .one c.padded_ops
  | or c x => exact .or c.padded_ops (padded_ops x)

/-- At a root, closing brackets too often changes nothing that is built. -/
theorem Clause.Padded.build_eq {c : Clause Condition} {ops : List (ChainOp Step)}
    (hops : c.Padded ops) {e : Engine} {h : HostId} {q : QueryId} {s : Query}
    (hq : e.Building h q) (hs : e.query? q = some s) (hroot : s.parent = none)
    {init : List (List Leaf)} {clause : List Leaf} (hc : s.clauses = init ++ [clause]) :
    e.build ⟨.condition, h, q⟩ ops = e.build ⟨.condition, h, q⟩ c.ops := by
  induction hops generalizing e s clause with
  | one a k =>
    obtain ⟨e', leaf, hbuilt, -⟩ := Atom.exists_built a hq hs hc
    obtain ⟨t, ht, -⟩ := hbuilt.query
    have hroot' := isRoot_of_parent ht ((hbuilt.builds.parent hs ht).trans hroot)
    have hclose := build_closeBrackets (h := h) hroot' k []
    rw [List.append_nil] at hclose
    rw [build_append, hbuilt.result, hclose, Clause.ops, hbuilt.result]
    rfl
  | @and a k c ops _ ih =>
    obtain ⟨e', leaf, hbuilt, -⟩ := Atom.exists_built a hq hs hc
    obtain ⟨t, ht, hclauses⟩ := hbuilt.query
    have hroot' := (hbuilt.builds.parent hs ht).trans hroot
    have hlater := ih (hq.mono hbuilt.builds) ht hroot' hclauses
    rw [build_append, hbuilt.result, build_closeBrackets (isRoot_of_parent ht hroot'),
      Clause.ops, build_append, hbuilt.result]
    exact hlater

/-- At the root of a tree, brackets that are closed too often build nothing. -/
theorem Padded.build_eq {x : Formula Condition} {ops : List (ChainOp Step)}
    (hops : x.Padded ops) {e : Engine} {h : HostId} {q : QueryId} {s : Query}
    (hq : e.Building h q) (hs : e.query? q = some s) (hroot : s.parent = none)
    {init : List (List Leaf)} (hc : s.clauses = init ++ [[]]) :
    e.build ⟨.condition, h, q⟩ ops = e.build ⟨.condition, h, q⟩ x.ops := by
  induction hops generalizing e s init with
  | one hops => exact hops.build_eq hq hs hroot hc
  | @or c x ops ops' hops _ ih =>
    obtain ⟨e', leaves, hbuilt, -⟩ := Clause.exists_built c hq hs hc
    obtain ⟨t, ht, -⟩ := hbuilt.query
    have hroot' := (hbuilt.builds.parent hs ht).trans hroot
    obtain ⟨hor, ht⟩ := builds_addClause ht
    have hlater := ih ((hq.mono hbuilt.builds).mono hor) ht hroot' rfl
    rw [build_append, hops.build_eq hq hs hroot hc, hbuilt.result, Formula.ops, build_append,
      hbuilt.result]
    exact hlater

end Formula

/-! ## Chains -/

/-- Whether an operation is one that builds formulas. -/
def ChainOp.isBuilding : ChainOp Step → Bool
  | .when .. | .openBracket | .and | .or | .closeBracket => true
  | _ => false

namespace Formula

mutual

/-- The operations of an atom build. -/
theorem Atom.isBuilding_of_mem {a : Atom Condition} {op : ChainOp Step} (hop : op ∈ a.ops) :
    op.isBuilding = true := by
  cases a with
  | cond c =>
    obtain rfl : op = .when c.1 c.2 := by simpa [Atom.ops] using hop
    rfl
  | bracket x =>
    simp only [Atom.ops, List.mem_cons, List.mem_append, List.not_mem_nil, or_false] at hop
    rcases hop with rfl | hop | rfl
    · rfl
    · exact x.padded_ops.isBuilding_of_mem hop
    · rfl

/-- The operations of a clause build, brackets to spare included. -/
theorem Clause.Padded.isBuilding_of_mem {c : Clause Condition} {ops : List (ChainOp Step)}
    (hops : c.Padded ops) {op : ChainOp Step} (hop : op ∈ ops) : op.isBuilding = true := by
  cases hops with
  | one a k =>
    rcases List.mem_append.1 hop with hop | hop
    · exact Atom.isBuilding_of_mem hop
    · rw [(List.mem_replicate.1 hop).2]
      rfl
  | and a k hops =>
    simp only [List.mem_append, List.mem_replicate, List.mem_cons] at hop
    rcases hop with hop | ⟨-, rfl⟩ | rfl | hop
    · exact Atom.isBuilding_of_mem hop
    · rfl
    · rfl
    · exact hops.isBuilding_of_mem hop

/-- The operations of a formula build, brackets to spare included. -/
theorem Padded.isBuilding_of_mem {x : Formula Condition} {ops : List (ChainOp Step)}
    (hops : x.Padded ops) {op : ChainOp Step} (hop : op ∈ ops) : op.isBuilding = true := by
  cases hops with
  | one hops => exact hops.isBuilding_of_mem hop
  | or hops hops' =>
    simp only [List.mem_append, List.mem_cons] at hop
    rcases hop with hop | rfl | hop
    · exact hops.isBuilding_of_mem hop
    · rfl
    · exact hops'.isBuilding_of_mem hop

end

end Formula

namespace Engine

variable {e : Engine} {h : HostId}

/-- Building puts nothing else on the agenda. -/
theorem tasks_chainOp (e : Engine) (f : Facet) {op : ChainOp Step} (hop : op.isBuilding = true) :
    (e.chainOp f op).2.2 = [] := by
  obtain ⟨kind, i, q⟩ := f
  cases op <;> simp [ChainOp.isBuilding] at hop <;> cases kind <;> rfl

/-- A task that is scheduled is the next one to be performed. -/
theorem step_schedule (e : Engine) (t : Task) : (e.schedule [t]).step = e.perform t :=
  step_of_agenda rfl

/-- A chain does one building operation after the other. -/
theorem run_chain (e : Engine) (f : Facet) {ops : List (ChainOp Step)}
    (hops : ∀ op ∈ ops, op.isBuilding = true) (more : List (ChainOp Step)) (name : Option String) :
    (e.schedule [.chain f (ops ++ more) name]).run ops.length =
      (e.build f ops).1.schedule [.chain (e.build f ops).2 more name] := by
  induction ops generalizing e f with
  | nil => rfl
  | cons op ops ih =>
    obtain ⟨hop, hops⟩ := List.forall_mem_cons.1 hops
    have hstep : (e.schedule [.chain f (op :: (ops ++ more)) name]).step =
        (e.chainOp f op).1.schedule [.chain (e.chainOp f op).2.1 (ops ++ more) name] := by
      rw [step_schedule]
      simp only [perform, chain, tasks_chainOp e f hop, List.nil_append]
    rw [List.length_cons, run_succ, List.cons_append, hstep]
    exact ih _ _ hops

/-- The engine when a rule of the host begins, with a query of its own and a task that keeps the host
in use. -/
def ruleBegun (e : Engine) (h : HostId) : Engine :=
  ((e.taken.schedule [.hold [h] []]).startRule h none).2

section

variable {host : Host} {x : Formula Condition} {ops more : List (ChainOp Step)}
  {name : Option String} {ts : List Task}

/-- A step that makes a rule opens a query for the session's host and schedules the chain on it. -/
theorem step_rule (ha : e.agenda = .step (.rule ops name none) :: ts)
    (hsession : e.session.host = some h) (hhost : e.host? h = some host) :
    e.step = (e.ruleBegun h).schedule [.chain ⟨.condition, h, e.queries.length⟩ ops name] := by
  have hsession' : e.taken.session.host = some h := hsession
  have hhost' : e.taken.host? h = some host := hhost
  rw [step_of_agenda ha]
  simp only [perform, performStep, hsession', Option.bind_some, hhost', Option.map_some]
  rfl

/-- The query of a rule begins without conditions. -/
theorem query?_ruleBegun (e : Engine) (h : HostId) :
    (e.ruleBegun h).query? e.queries.length = some {} :=
  (query?_addQuery (e.taken.schedule [.hold [h] []]) none e.queries.length).trans (if_pos rfl)

/-- The query of a rule that begins may be built at. -/
theorem building_ruleBegun (hsession : e.session.host = some h) (hhost : e.host? h = some host) :
    (e.ruleBegun h).Building h e.queries.length := by
  have hin : e.current < e.sessions.length := by
    by_contra hout
    simp [session, List.getElem?_eq_none (Nat.le_of_not_lt hout)] at hsession
  have hlisted : (e.ruleBegun h).host? h =
      some { host with queries := host.queries ++ [e.queries.length] } := by
    change ((e.addQuery none).2.updateHost h _).host? h = _
    rw [host?_updateHost, if_pos rfl]
    change Option.map _ (e.host? h) = _
    rw [hhost]
    rfl
  have hheld : .hold [h] [] ∈ (e.ruleBegun h).agenda := List.mem_cons_self
  exact ⟨⟨_, 0, ⟨⟨_, hlisted, by simp⟩, _, hheld, by simp [Task.hosts]⟩, .root⟩, hin⟩

/-- How a rule begins has nothing to do with its chain. -/
theorem ruleBegun_agenda {t : Task} (ha : e.agenda = t :: ts) (t' : Task) :
    { e with agenda := t' :: ts }.ruleBegun h = e.ruleBegun h := by
  simp only [ruleBegun, taken, ha, List.tail_cons]

/-- Of brackets that are closed too often, nothing is left when the formula is built. -/
theorem run_rule {b : Engine} {f : Facet}
    (hbuilt : (e.ruleBegun h).build ⟨.condition, h, e.queries.length⟩ x.ops = (b, f))
    (hops : x.Padded ops) (ha : e.agenda = .step (.rule (ops ++ more) name none) :: ts)
    (hsession : e.session.host = some h) (hhost : e.host? h = some host) :
    e.run (1 + ops.length) = b.schedule [.chain f more name] := by
  rw [Nat.add_comm, run_succ, step_rule ha hsession hhost,
    run_chain _ _ fun _ hop => hops.isBuilding_of_mem hop,
    hops.build_eq (building_ruleBegun hsession hhost) (query?_ruleBegun e h) rfl
      (List.nil_append _).symm, hbuilt]

/-- A chain that spells a formula ends as a junction at the query it began with, which is a root, and
brackets closed too often do not matter. The query is the formula, and stays so while it and the
later queries keep their clauses. Then evaluating it gives the value of the formula under the values
that the conditions have now, and asks the conditions that short-circuit evaluation asks, from left
to right. A rule that spells the same with a clause in brackets evaluates to the same. -/
theorem evaluate_chain (hops : x.Padded ops)
    (ha : e.agenda = .step (.rule (ops ++ more) name none) :: ts)
    (hsession : e.session.host = some h) (hhost : e.host? h = some host) {b : Engine}
    (hb : b = (e.run (1 + ops.length)).taken) :
    e.run (1 + ops.length) = b.schedule [.chain ⟨.junction, h, e.queries.length⟩ more name] ∧
    e.run (1 + ops.length) =
      { e with agenda := .step (.rule (x.ops ++ more) name none) :: ts }.run (1 + x.ops.length) ∧
    b.agenda = .hold [h] [] :: ts ∧ b.isRoot e.queries.length = true ∧
    x.IsAt b (b.leafOf h) e.queries.length ∧
    ∀ e' : Engine,
      ((∀ p s, e.queries.length ≤ p → b.query? p = some s →
        ∃ t, e'.query? p = some t ∧ t.clauses = s.clauses) →
          x.IsAt e' (b.leafOf h) e.queries.length) ∧
      (x.IsAt e' (b.leafOf h) e.queries.length →
        (∀ c ∈ x.conditions, e'.LeafGrounded (b.leafOf h c)) →
        (e'.evaluate e.queries.length).value = x.holds (e'.valueOf (b.leafOf h)) ∧
        (e'.evaluate e.queries.length).events =
          e'.askedEvents (b.leafOf h) (x.asked (e'.valueOf (b.leafOf h))) ∧
        ∀ x' q', x.Wraps x' → x'.IsAt e' (b.leafOf h) q' →
          e'.evaluate q' = e'.evaluate e.queries.length) := by
  have hquery := query?_ruleBegun e h
  obtain ⟨b', clauses, hbuilt, hspelled⟩ :=
    x.exists_built (building_ruleBegun hsession hhost) hquery (List.nil_append _).symm
  have hrun := run_rule hbuilt.result hops ha hsession hhost
  obtain rfl : b = b' := by rw [hb, hrun]; rfl
  rw [← ruleBegun_agenda ha (.step (.rule (x.ops ++ more) name none))] at hbuilt
  have hplain : { e with agenda := .step (.rule (x.ops ++ more) name none) :: ts }.run
      (1 + x.ops.length) = _ := run_rule hbuilt.result x.padded_ops rfl hsession hhost
  rw [ruleBegun_agenda ha] at hbuilt
  obtain ⟨t, ht, hclauses⟩ := hbuilt.query
  have hat : x.IsAt b (b.leafOf h) e.queries.length := by
    refine ⟨t, ht, ?_⟩
    rw [hclauses]
    exact hspelled.mono (fun _ _ hleaf => hleaf.eq) fun p s _ hs => ⟨s, hs, rfl⟩
  have hagenda : (e.ruleBegun h).agenda = .hold [h] [] :: ts := by
    rw [← agenda_taken ha]
    rfl
  refine ⟨hrun, hrun.trans hplain.symm, hbuilt.builds.agenda.trans hagenda,
    isRoot_of_parent ht (hbuilt.builds.parent hquery ht), hat,
    fun e' => ⟨hat.mono, fun hat' hends => ⟨?_, ?_, fun x' q' hwraps hat'' => ?_⟩⟩⟩
  · rw [hat'.evaluate hends]
  · rw [hat'.evaluate hends]
  · exact hat'.evaluate_wraps hat'' hwraps hends

end

/-- The flag of a lamp, which logs that it is asked. -/
def lamp (name : String) : Condition := (.node (.flag name false true), none)

/-- `desk ∧ (hall ∨ porch) ∧ stairs`. -/
def wayUp : Formula.Clause Condition :=
  .and (.cond (lamp "desk"))
    (.and (.bracket (.or (.one (.cond (lamp "hall"))) (.one (.one (.cond (lamp "porch"))))))
      (.one (.cond (lamp "stairs"))))

/-- The way up is lit, or the cellar is. -/
def lampRule : Formula Condition := .or wayUp (.one (.one (.cond (lamp "cellar"))))

/-- The same rule with a bracket around the way up. -/
def wrappedRule : Formula Condition :=
  .or (.one (.bracket (.one wayUp))) (.one (.one (.cond (lamp "cellar"))))

/-- The operations of the lamp rule, with brackets closed behind the way up and at the end. -/
def lampOps : List (ChainOp Step) :=
  wayUp.ops ++ [.closeBracket, .or, .when (lamp "cellar").1 none, .closeBracket, .closeBracket]

/-- The chain of the lamps is that of the rule with brackets that are closed too often. -/
theorem padded_lampOps : lampRule.Padded lampOps := by
  have hup : wayUp.Padded (wayUp.ops ++ [.closeBracket]) :=
    .and _ 0 (.and _ 0 (.one (.cond (lamp "stairs")) 1))
  exact .or hup (.one (.one (.cond (lamp "cellar")) 2))

/-- The rule, and then the same with a bracket around the way up. -/
def lampRules : Engine where
  hosts := [Host.new {} (Form.empty "house") false]
  sessions := [{ host := some 0, flags := [("desk", ⟨true, []⟩), ("porch", ⟨true, []⟩)] }]
  agenda := [.step (.rule (lampOps ++ []) none none), .step (.rule wrappedRule.ops none none)]

/-- The queries that the chains of both rules leave, each bracket with one of its own. -/
theorem query?_lampRules (q : QueryId) : (lampRules.run 31).query? q =
    [{ clauses := [[.flag ⟨0, "desk"⟩ true, .query 1, .flag ⟨0, "stairs"⟩ true],
        [.flag ⟨0, "cellar"⟩ true]] },
      { parent := some 0, clauses := [[.flag ⟨0, "hall"⟩ true], [.flag ⟨0, "porch"⟩ true]] },
      { clauses := [[.query 3], [.flag ⟨0, "cellar"⟩ true]] },
      { parent := some 2,
        clauses := [[.flag ⟨0, "desk"⟩ true, .query 4, .flag ⟨0, "stairs"⟩ true]] },
      { parent := some 3,
        clauses := [[.flag ⟨0, "hall"⟩ true], [.flag ⟨0, "porch"⟩ true]] : Query}][q]? := by
  refine congrArg (·[q]?) ?_
  with_unfolding_all rfl

/-- A lamp is a flag of the session that the rules are made in. -/
theorem leafOf_lamp (name : String) :
    (lampRules.run 15).taken.leafOf 0 (lamp name) = .flag ⟨0, name⟩ true := by
  have hcurrent : (lampRules.run 15).taken.current = 0 := by decide +kernel
  exact congrArg (fun s => Leaf.flag ⟨s, name⟩ true) hcurrent

/-- Both rules stand where they were built. -/
theorem isAt_lampRules :
    lampRule.IsAt (lampRules.run 31) ((lampRules.run 15).taken.leafOf 0) 0 ∧
      wrappedRule.IsAt (lampRules.run 31) ((lampRules.run 15).taken.leafOf 0) 2 := by
  constructor <;>
    simp [Formula.IsAt, query?_lampRules, lampRule, wrappedRule, wayUp, Formula.Spelled,
      Formula.Clause.Spelled, Formula.Atom.Spelled, leafOf_lamp]

/-- The desk is lit and the porch, but not the stairs nor the cellar. Both rules ask the lamps in
the same order, and fail. -/
theorem evaluate_chain_lamps :
    lampRules.run 15 = (lampRules.run 15).taken.schedule [.chain ⟨.junction, 0, 0⟩ [] none] ∧
    ((lampRules.run 31).evaluate 0).value = false ∧
    ((lampRules.run 31).evaluate 0).events = [.flag "desk" true, .flag "hall" false,
      .flag "porch" true, .flag "stairs" false, .flag "cellar" false] ∧
    (lampRules.run 31).evaluate 2 = (lampRules.run 31).evaluate 0 := by
  obtain ⟨hrun, -, -, -, -, heval⟩ :=
    evaluate_chain (e := lampRules) (h := 0) padded_lampOps rfl rfl rfl rfl
  obtain ⟨hplain, hwrapped⟩ := isAt_lampRules
  have hends : ∀ c ∈ lampRule.conditions,
      (lampRules.run 31).LeafGrounded ((lampRules.run 15).taken.leafOf 0 c) := by
    intro c hc p hp
    have hlamps : lampRule.conditions = ["desk", "hall", "porch", "stairs", "cellar"].map lamp := rfl
    obtain ⟨name, -, rfl⟩ := List.mem_map.1 (hlamps ▸ hc)
    simp [leafOf_lamp] at hp
  obtain ⟨hvalue, hevents, hwraps⟩ := (heval (lampRules.run 31)).2 hplain hends
  refine ⟨hrun, hvalue.trans (by decide +kernel), hevents.trans ?_,
    hwraps wrappedRule 2 (.here (.whole wayUp) _) hwrapped⟩
  with_unfolding_all rfl

end Engine

end FormRules
