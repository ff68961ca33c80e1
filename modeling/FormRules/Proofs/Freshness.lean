import FormRules.Proofs.Rounds
import FormRules.Proofs.Rules

/-!
# Rules do not go stale

Between calls the last result of a rule is its present one, whatever cascades the calls before have
caused (`Engine.last?_eq_evaluate`). While a call runs that is not so: a field has changed, and
those who listen have not heard of it yet. What holds all the time is `Engine.Fresh`: the last
result of a rule is its present one, or some task left to do will trigger the rule
(`Engine.IsRung`). A trigger makes the result right; an effect or a write that moves the
result reports a field that the rule listens to, and the report is a task that will trigger it.

A rule that was triggered and then gets another condition is the exception. Nobody triggers it again
for the condition's sake, not even its first callback, so it stays stale until a field that it
listens to changes (`stale_after_late_condition`).
-/

namespace FormRules

/-- Whether the operation adds a condition or a clause. -/
def Facet.adds (f : Facet) : ChainOp Step → Bool
  | .when .. | .openBracket => f.kind == .condition
  | .or => f.kind == .junction
  | _ => false

namespace Engine

/-! ## The tree of a rule -/

/-- `q` is `r`, or some of its parents is. -/
inductive IsBelow (e : Engine) (r : QueryId) : QueryId → Prop
  | root : IsBelow e r r
  | child {p q : QueryId} {s : Query} (hp : IsBelow e r p) (hs : e.query? q = some s)
      (parent : s.parent = some p) : IsBelow e r q

/-- What is below a query stays below it while parents stay. -/
theorem IsBelow.carry {e e' : Engine} {r q : QueryId} (h : e.IsBelow r q) (he : e.Carries e') :
    e'.IsBelow r q := by
  induction h with
  | root => exact .root
  | child hp hs parent ih =>
    obtain ⟨t, ht, hparent, -⟩ := he.query _ _ hs
    exact .child ih ht (hparent.trans parent)

/-- Below a query that exists there are queries that exist. -/
theorem IsBelow.exists_query {e : Engine} {r q : QueryId} {s : Query} (hs : e.query? r = some s)
    (hq : e.IsBelow r q) : ∃ t, e.query? q = some t := by
  cases hq with
  | root => exact ⟨s, hs⟩
  | child hp ht parent => exact ⟨_, ht⟩

namespace IsPlain

variable {config : Config Action} {e : Engine} {r : QueryId}

/-- What is below a query in a plain engine is a node of its tree. -/
theorem isNode_of_isBelow (h : e.IsPlain config) {q : QueryId} (hq : e.IsBelow r q) :
    ∃ n, e.IsNode r n q := by
  induction hq with
  | root => exact ⟨0, .root⟩
  | @child p q s hp hs parent ih =>
    obtain ⟨n, hn⟩ := ih
    obtain ⟨-, t, ht, hmentions⟩ := (h.queries q s hs).parent p parent
    exact ⟨n + 1, .bracket hn ht hmentions hs parent⟩

/-- The one host is in use, since the session has it. -/
theorem hostInUse (h : e.IsPlain config) : e.hostInUse 0 = true := by
  obtain ⟨s, hs, hplain⟩ := h.session
  simp [Engine.hostInUse, hs, hplain.host]

/-- Every rule is a tree. -/
theorem isTree (h : e.IsPlain config) {s : Query} (hs : e.query? r = some s)
    (hroot : s.parent = none) : e.IsTree r where
  root := ⟨s, hs, hroot⟩
  held := by
    obtain ⟨host, hhost, hr⟩ := (h.queries r s hs).root hroot
    have hmem : (host, 0) ∈ e.hosts.zipIdx := List.mk_mem_zipIdx_iff_getElem?.2 hhost
    simp only [holdsDirectly, Bool.or_eq_true, List.any_eq_true]
    refine Or.inl (Or.inr ⟨(host, 0), hmem, ?_⟩)
    simp [Host.heldQueries, hr, h.hostInUse]
  bracket := by
    intro n p t q _ ht hq
    exact (h.queries p t ht).leaves (.query q) (Query.mentions_iff.1 hq)

/-- A rule is the root of all that is below it. -/
theorem root_of_isBelow (h : e.IsPlain config) {s : Query} (hs : e.query? r = some s)
    (hroot : s.parent = none) {q : QueryId} (hq : e.IsBelow r q) : e.root q = r := by
  obtain ⟨n, hn⟩ := h.isNode_of_isBelow hq
  exact root_of_isNode (h.isTree hs hroot) hn

/-! ## Results that do not change -/

/-- A condition on a value is checked on the one host. -/
theorem leafValue_check (h : e.IsPlain config) {host : Host} (hhost : e.host? 0 = some host)
    (spec : Spec) (c : Value) :
    e.leafValue (.check 0 spec c) = (host.check e.flags spec c).value := by
  have hfilter : (e.host? 0).filter (fun _ => e.hostInUse 0) = some host := by
    simp [hhost, h.hostInUse]
  simp only [leafValue, evaluateLeaf, hfilter]

/-- A bracket of a query is below what the query is below. -/
theorem isBelow_bracket (h : e.IsPlain config) {q p : QueryId} {t : Query} (hq : e.IsBelow r q)
    (ht : e.query? q = some t) {clause : List Leaf} (hc : clause ∈ t.clauses)
    (hp : Leaf.query p ∈ clause) : e.IsBelow r p := by
  obtain ⟨u, hu, hparent⟩ := (h.queries q t ht).leaves (.query p) ⟨clause, hc, hp⟩
  exact .child hq hu hparent

/-- If an engine has the clauses that another has in the tree of a rule, and their forms agree on
what these listen to, the rule holds in both or in neither. -/
theorem holds_iff {e' : Engine} (hconfig : (Draft.withDefaults .builtin).build = .ok config)
    (h : e.IsPlain config) (h' : e'.IsPlain config) {s : Query} (hs : e.query? r = some s)
    (hclauses : ∀ q t, e.IsBelow r q → e.query? q = some t →
      ∃ t', e'.query? q = some t' ∧ t'.clauses = t.clauses)
    (hforms : ∀ host host', e.host? 0 = some host → e'.host? 0 = some host' →
      ∀ q spec, e.IsBelow r q →
        ⟨some (host.form.pick spec.trigger), .query q⟩ ∈ host.subscriptions →
          host.form.Agree host'.form spec) : e.Holds r ↔ e'.Holds r := by
  have hleaf : ∀ q t, e.IsBelow r q → e.query? q = some t → ∀ clause ∈ t.clauses,
      ∀ leaf ∈ clause, leaf.isQuery = false → e'.leafValue leaf = e.leafValue leaf := by
    intro q t hq ht clause hc leaf hl hn
    have hleaf := (h.queries q t ht).leaves leaf ⟨clause, hc, hl⟩
    cases leaf with
    | query c => simp [Leaf.isQuery] at hn
    | flag ref logged => exact absurd hleaf id
    | test i field spec t label => exact absurd hleaf id
    | check i spec c =>
      obtain ⟨rfl, hvalue, host, hhost, hsub⟩ := hleaf
      obtain ⟨host', hhosts', hplain'⟩ := h'.host
      have hhost' : e'.host? 0 = some host' := by simp [host?, hhosts']
      obtain ⟨-, hplain⟩ := h.host?_eq hhost
      rw [h.leafValue_check hhost, h'.leafValue_check hhost']
      refine Host.value_check_congr (hplain'.evaluations.trans hplain.evaluations.symm) ?_
        (hforms host host' hhost hhost' q spec hq hsub) _ _
      rw [hplain.evaluations]
      exact Config.readsValueOnly hconfig hvalue
  have hforward : ∀ q, e.Holds q → e.IsBelow r q → e'.Holds q := by
    intro q hq
    induction hq with
    | @clause q t clause ht hc brackets others ih =>
      intro hq
      obtain ⟨t', ht', hsame⟩ := hclauses q t hq ht
      refine .clause ht' (hsame ▸ hc)
        (fun p hp => ih p hp (h.isBelow_bracket hq ht hc hp)) fun leaf hl hn => ?_
      rw [hleaf q t hq ht clause hc leaf hl hn]
      exact others leaf hl hn
  have hbackward : ∀ q, e'.Holds q → e.IsBelow r q → e.Holds q := by
    intro q hq
    induction hq with
    | @clause q t' clause ht' hc brackets others ih =>
      intro hq
      obtain ⟨t, ht⟩ := hq.exists_query hs
      obtain ⟨u, hu, hsame⟩ := hclauses q t hq ht
      obtain rfl := Option.some.inj (hu.symm.trans ht')
      rw [hsame] at hc
      refine .clause ht hc
        (fun p hp => ih p hp (h.isBelow_bracket hq ht hc hp)) fun leaf hl hn => ?_
      rw [← hleaf q t hq ht clause hc leaf hl hn]
      exact others leaf hl hn
  exact ⟨fun hr => hforward r hr .root, fun hr => hbackward r hr .root⟩

/-- An engine stays plain when its next task is taken. -/
theorem taken (h : e.IsPlain config) : e.taken.IsPlain config :=
  h.of_eq rfl rfl rfl rfl fun t ht => h.agenda t (List.mem_of_mem_tail ht)

/-- An engine stays plain by one task. -/
theorem step (hconfig : (Draft.withDefaults .builtin).build = .ok config)
    (h : e.IsPlain config) : e.step.IsPlain config := by
  cases ha : e.agenda with
  | nil => simpa [Engine.step, ha] using h
  | cons t ts =>
    rw [step_of_agenda ha]
    exact h.taken.perform hconfig (h.agenda t (by simp [ha]))

/-- An engine stays plain along a run. -/
theorem run (hconfig : (Draft.withDefaults .builtin).build = .ok config)
    (h : e.IsPlain config) (n : Nat) : (e.run n).IsPlain config := by
  induction n with
  | zero => exact h
  | succ n ih =>
    rw [run_succ']
    exact ih.step hconfig

end IsPlain

/-! ## Rung rules -/

/-- Whether the task will trigger `q`. -/
def Rings (e : Engine) (q : QueryId) : Task → Prop
  | .trigger p => p = q
  | .inform listeners .. => .query q ∈ listeners
  | .notify h changed _ => ∃ host, e.host? h = some host ∧ ∃ c ∈ changed,
      ∃ sub ∈ host.subscriptions, sub.covers c = true ∧ sub.listener = .query q
  | _ => False

/-- Some task left to do will trigger the rule. -/
def IsRung (e : Engine) (r : QueryId) : Prop :=
  ∃ t ∈ e.agenda, ∃ q, e.IsBelow r q ∧ e.Rings q t

/-- The last result of the rule is its present one, or some task will trigger it. -/
structure Fresh (e : Engine) (r : QueryId) : Prop where
  result : ∀ b, e.last? r = some b → (b = true ↔ e.Holds r) ∨ e.IsRung r
  /-- A rule with callbacks that was never triggered will be. -/
  started : e.last? r = none → e.callbacks r = [] ∨ e.IsRung r

variable {config : Config Action} {e : Engine} {r : QueryId} {t : Task} {ts : List Task}

/-- A task keeps subscriptions and brackets. -/
theorem carries_step (ha : e.agenda = t :: ts) : e.Carries e.step :=
  ⟨(extends_step ha).carries.query, (extends_step ha).carries.host⟩

/-- A task that will trigger a query still does when hosts have grown. -/
theorem Rings.extend {e' : Engine} {q : QueryId} (h : e.Rings q t)
    (he : ∀ i s, e.host? i = some s → ∃ t, e'.host? i = some t ∧ s.Grows t) : e'.Rings q t := by
  cases t with
  | notify i changed automatic =>
    obtain ⟨host, hhost, c, hc, sub, hsub, hcovers⟩ := h
    obtain ⟨host', hhost', hgrows⟩ := he i host hhost
    exact ⟨host', hhost', c, hc, sub, hgrows.subscriptions.subset hsub, hcovers⟩
  | _ => exact h

/-- A rule that will be triggered still will be after a task, if not by that task itself. -/
theorem IsRung.step (hr : e.IsRung r) (ha : e.agenda = t :: ts)
    (hring : ∀ q, e.IsBelow r q → e.Rings q t → e.step.IsRung r) : e.step.IsRung r := by
  obtain ⟨t', ht', q, hq, hrings⟩ := hr
  rw [ha] at ht'
  rcases List.mem_cons.1 ht' with rfl | ht'
  · exact hring q hq hrings
  · have hextends := extends_step ha
    rw [← agenda_taken ha] at ht'
    exact ⟨t', hextends.agenda.subset ht', q, hq.carry (carries_step ha),
      Rings.extend hrings hextends.host⟩

/-- What is left of freshness to show for a task that does not start a round of the rule. -/
theorem Fresh.of_same (h : e.Fresh r) (hlast : e.step.last? r = e.last? r)
    (hcallbacks : e.last? r = none → e.callbacks r = [] →
      e.step.callbacks r = [] ∨ e.step.IsRung r)
    (hholds : ∀ b, e.last? r = some b → (e.Holds r ↔ e.step.Holds r) ∨ e.step.IsRung r)
    (hrung : e.IsRung r → e.step.IsRung r) : e.step.Fresh r where
  result b hb := by
    rw [hlast] at hb
    rcases h.result b hb with hresult | hr
    · rcases hholds b hb with hsame | hr
      · exact Or.inl (hresult.trans hsame)
      · exact Or.inr hr
    · exact Or.inr (hrung hr)
  started hn := by
    rw [hlast] at hn
    rcases h.started hn with hnone | hr
    · exact hcallbacks hn hnone
    · exact Or.inr (hrung hr)

/-- Only a query that exists has a last result. -/
theorem exists_query_of_last? {b : Bool} (h : e.last? r = some b) : ∃ s, e.query? r = some s := by
  cases hs : e.query? r with
  | none => simp [last?, queryAt, hs] at h
  | some s => exact ⟨s, rfl⟩

/-- A query that does not exist cannot go stale. -/
theorem fresh_of_none (h : e.query? r = none) : e.Fresh r :=
  ⟨fun b hb => by simp [last?, queryAt, h] at hb, fun _ => Or.inl (by simp [callbacks, h])⟩

/-! ### Tasks that do not move results -/

end Engine

/-- What a rule needs of a query to stay fresh, where conditions may be added to the query `i` and
callbacks to the query `c`. -/
def Query.seen (i c : Option QueryId) (q : QueryId) (s : Query) :
    Option Bool × List (List Leaf) × List Callback :=
  (s.last, if i = some q then [] else s.clauses,
    if c = some q then [] else s.callbacks.map Callback.unspent)

/-- Where conditions are added, clauses are not looked at. -/
theorem Query.seen_clauses (c : Option QueryId) (q : QueryId) (s : Query)
    (clauses : List (List Leaf)) :
    { s with clauses := clauses }.seen (some q) c q = s.seen (some q) c q := by
  simp [seen]

namespace Engine

variable {config : Config Action} {e : Engine} {r : QueryId} {t : Task} {ts : List Task}

/-- A task that moves no result keeps a rule fresh if what it was to trigger is still to be
triggered. Conditions may be added to a rule that was never triggered. -/
theorem fresh_of_moves (hconfig : (Draft.withDefaults .builtin).build = .ok config)
    (h : e.IsPlain config) (ha : e.agenda = t :: ts) (hfresh : e.Fresh r) {i c : Option QueryId}
    (hmoves : Moves (Query.seen i c) Host.Keeps e.taken e.step)
    (hring : ∀ q, e.IsBelow r q → e.Rings q t → e.step.IsRung r)
    (hi : ∀ q, i = some q → e.IsBelow r q → e.last? r = none)
    (hc : c = some r → e.last? r = none → e.step.IsRung r) : e.step.Fresh r := by
  have hview : ∀ q, (e.step.queryAt q).seen i c q = (e.queryAt q).seen i c q := hmoves.view
  refine hfresh.of_same (congrArg (·.1) (hview r)) (fun hn hnone => ?_) (fun b hb => Or.inl ?_)
    fun hr => hr.step ha hring
  · by_cases hcr : c = some r
    · exact Or.inr (hc hcr hn)
    · have hcallbacks := congrArg (·.2.2) (hview r)
      have hnone' : (e.queryAt r).callbacks = [] := hnone
      simp only [Query.seen, if_neg hcr, hnone', List.map_nil, List.map_eq_nil_iff] at hcallbacks
      exact Or.inl hcallbacks
  · obtain ⟨s, hs⟩ := exists_query_of_last? hb
    refine h.holds_iff hconfig (h.step hconfig) hs (fun q u hq hu => ?_) ?_
    · obtain ⟨u', hu', -⟩ := hmoves.query q u hu
      refine ⟨u', hu', ?_⟩
      have hiq : i ≠ some q := fun hiq => by simp [hi q hiq hq] at hb
      have hclauses := congrArg (·.2.1) (hview q)
      simpa only [Query.seen, if_neg hiq, queryAt_eq hu, queryAt_eq hu'] using hclauses
    · intro host host' hhost hhost' q spec _ _
      obtain ⟨x, hx, hkeeps⟩ := hmoves.host 0 host hhost
      obtain rfl := Option.some.inj (hx.symm.trans hhost')
      exact ⟨hkeeps.fields, fun _ _ => by rw [hkeeps.form]⟩

/-- The same of a task that keeps all that conditions see. -/
theorem fresh_of_keeps (hconfig : (Draft.withDefaults .builtin).build = .ok config)
    (h : e.IsPlain config) (ha : e.agenda = t :: ts) (hfresh : e.Fresh r)
    (hkeeps : e.taken.Keeps e.step)
    (hring : ∀ q, e.IsBelow r q → e.Rings q t → e.step.IsRung r) : e.step.Fresh r := by
  have hmoves : Moves (Query.seen none none) Host.Keeps e.taken e.step := by
    refine Moves.weaken hkeeps (fun q s u hsu => ?_) fun _ _ hst => hst
    obtain ⟨hclauses, hlast, -, hcallbacks⟩ :
        s.clauses = u.clauses ∧ s.last = u.last ∧ s.paused = u.paused ∧
          s.callbacks.map Callback.unspent = u.callbacks.map Callback.unspent := by
      simpa [Query.kept] using hsu
    simp [Query.seen, hclauses, hlast, hcallbacks]
  exact fresh_of_moves hconfig h ha hfresh hmoves hring (fun q hq => by simp at hq)
    fun hc => by simp at hc

/-! ### Triggers -/

/-- What a trigger leaves of other queries. -/
theorem query?_trigger (e : Engine) (q i : QueryId) : (e.trigger q).query? i = e.query? i ∨
    i = e.root q ∧ (e.trigger q).query? i =
      (e.query? i).map fun s => { s with last := some (e.evaluate i).value } := by
  rw [trigger_eq]
  split
  · exact Or.inl rfl
  · split
    · exact Or.inl rfl
    · rw [query?_startRound]
      split
      · next hi => exact Or.inr ⟨hi.symm, by rw [hi]⟩
      · exact Or.inl rfl

/-- A trigger of a tree that is not paused makes its last result the present one. -/
theorem last?_trigger {q : QueryId} {s : Query} (hs : e.query? (e.root q) = some s)
    (hawake : s.paused = false) :
    (e.trigger q).last? (e.root q) = some (e.evaluate (e.root q)).value := by
  have hpaused : e.isPaused (e.root q) = false := by simp [isPaused, hs, hawake]
  rw [trigger_eq, if_neg (by simp [hpaused])]
  split
  · next hlast => exact hlast
  · rw [last?, queryAt, query?_startRound, if_pos rfl, hs]
    rfl

/-- A trigger leaves its own rule fresh, and others as they were. -/
theorem fresh_of_trigger (hconfig : (Draft.withDefaults .builtin).build = .ok config)
    (h : e.IsPlain config) {q : QueryId} (ha : e.agenda = .trigger q :: ts) (hfresh : e.Fresh r)
    (hroot : ∀ s, e.query? r = some s → s.parent = none) : e.step.Fresh r := by
  have hstep : e.step = e.taken.trigger q := step_of_agenda ha
  cases hs : e.query? r with
  | none =>
    have hnone : e.step.query? r = none := by
      rw [hstep]
      rcases query?_trigger e.taken q r with hsame | ⟨-, hsame⟩
      · exact hsame.trans hs
      · rw [hsame, show e.taken.query? r = none from hs]
        rfl
    exact fresh_of_none hnone
  | some s =>
    have htaken : e.taken.Holds r ↔ e.Holds r :=
      h.taken.holds_iff hconfig h hs (fun p u _ hu => ⟨u, hu, rfl⟩)
        fun host host' hhost hhost' _ _ _ _ => by
          obtain rfl := Option.some.inj (hhost.symm.trans hhost')
          exact ⟨.refl _, fun _ _ => rfl⟩
    have hholds : e.Holds r ↔ e.step.Holds r := by
      refine h.holds_iff hconfig (h.step hconfig) hs (fun p u _ hu => ?_) ?_
      · rw [hstep]
        rcases query?_trigger e.taken q p with hsame | ⟨-, hsame⟩
        · exact ⟨u, hsame.trans hu, rfl⟩
        · exact ⟨{ u with last := some (e.taken.evaluate p).value },
            by rw [hsame, show e.taken.query? p = some u from hu]; rfl, rfl⟩
      · intro host host' hhost hhost' p spec _ _
        have hsame : e.step.host? 0 = e.host? 0 := by
          rw [hstep, host?, hosts_trigger]
          rfl
        obtain rfl := Option.some.inj (hhost.symm.trans (hsame ▸ hhost'))
        exact ⟨.refl _, fun _ _ => rfl⟩
    by_cases hq : e.taken.root q = r
    · have htree : e.taken.IsTree r := h.taken.isTree hs (hroot s hs)
      have hlast : e.step.last? r = some (e.taken.evaluate r).value := by
        rw [hstep]
        subst hq
        exact last?_trigger (s := s) hs (h.queries _ s hs).awake
      refine ⟨fun b hb => Or.inl ?_, fun hn => by simp [hlast] at hn⟩
      rw [hlast] at hb
      rw [← hholds, ← htaken, ← evaluate_iff_holds htree .root, ← Option.some.inj hb]
    · have hquery : e.step.query? r = e.query? r := by
        rw [hstep]
        rcases query?_trigger e.taken q r with hsame | ⟨hr, -⟩
        · exact hsame
        · exact absurd hr.symm hq
      refine hfresh.of_same (by rw [last?, queryAt, hquery]; rfl)
        (fun _ hnone => Or.inl (by rw [callbacks, hquery]; exact hnone)) (fun _ _ => Or.inl hholds)
        fun hr => hr.step ha fun p hp hrings => absurd ?_ hq
      obtain rfl : q = p := hrings
      have hcarries : e.Carries e.taken :=
        ⟨fun p s hs => ⟨s, hs, rfl, fun _ hc => hc⟩, fun host hhost => ⟨host, hhost, .refl host⟩⟩
      exact h.taken.root_of_isBelow hs (hroot s hs) (hp.carry hcarries)

/-! ### Effects and writes -/

/-- Who hears of what an effect or a write changes: there is a notification for every field that is
reported. -/
structure Announces (e e' : Engine) : Prop where
  queries : e'.queries = e.queries
  form : ∀ host, e.host? 0 = some host → ∃ host' changed, e'.host? 0 = some host' ∧
    host'.subscriptions = host.subscriptions ∧ host.form.Reports host'.form changed ∧
    ∀ c ∈ changed, ∃ hs automatic, c ∈ hs ∧ .notify 0 hs automatic ∈ e'.agenda

theorem Announces.refl (e : Engine) : e.Announces e :=
  ⟨rfl, fun host hhost => ⟨host, [], hhost, rfl, .refl _ _, fun _ hc => by simp at hc⟩⟩

/-- An effect announces what it changes. -/
theorem announces_applyEffect (h : e.IsPlain config) (i : HostId) (field : String)
    {effect : Effect} (heffect : effect ≠ .optionVisible) (s : Switch) (skip answers : Bool) :
    e.Announces (e.applyEffect i field effect s skip answers) := by
  unfold applyEffect
  split
  · exact .refl e
  · next host hhost =>
    obtain ⟨rfl, -⟩ := h.host?_eq hhost
    dsimp only
    refine ⟨by split <;> rfl, fun x hx => ?_⟩
    obtain rfl : host = x := Option.some.inj (hhost.symm.trans hx)
    refine ⟨{ host with form := (host.form.apply (host.fields field false).value effect s).1 },
      (host.form.apply (host.fields field false).value effect s).2, ?_, rfl,
      Form.reports_apply _ _ heffect s, fun c hc => ⟨_, true, hc, by simp [schedule, observe]⟩⟩
    split
    · exact host?_updateForm hhost _
    · exact host?_updateForm hhost _

/-- A write announces what it changes. -/
theorem announces_write (h : e.IsPlain config) (i : HostId) (field : String) (v : Value)
    (automatic : Bool) : e.Announces (e.write i field v automatic) := by
  unfold write
  split
  · exact .refl e
  · next host hhost =>
    obtain ⟨rfl, -⟩ := h.host?_eq hhost
    dsimp only
    refine ⟨by split <;> rfl, fun x hx => ?_⟩
    obtain rfl : host = x := Option.some.inj (hhost.symm.trans hx)
    refine ⟨{ host with form := (host.form.write (host.fields field false).value v).1 },
      (host.form.write (host.fields field false).value v).2, ?_, rfl, Form.reports_write _ _ v,
      fun c hc => ⟨_, automatic, hc, by simp [schedule, observe]⟩⟩
    split
    · exact host?_updateForm hhost _
    · exact host?_updateForm hhost _

/-- A change that is announced leaves a rule fresh: either the result stays, or the announcement
will trigger the rule. -/
theorem fresh_of_announces (hconfig : (Draft.withDefaults .builtin).build = .ok config)
    (h : e.IsPlain config) (ha : e.agenda = t :: ts) (hfresh : e.Fresh r)
    (hannounces : e.taken.Announces e.step) (hring : ∀ q, ¬ e.Rings q t) : e.step.Fresh r := by
  have hquery : ∀ q, e.step.query? q = e.query? q := by
    intro q
    rw [query?, hannounces.queries]
    rfl
  obtain ⟨host, hhosts, -⟩ := h.host
  have hhost : e.host? 0 = some host := by simp [host?, hhosts]
  obtain ⟨host', changed, hhost', hsubs, hreports, hnotify⟩ := hannounces.form host hhost
  refine hfresh.of_same (by rw [last?, queryAt, hquery]; rfl)
    (fun _ hnone => Or.inl (by rw [callbacks, hquery]; exact hnone)) (fun b hb => ?_)
    fun hr => hr.step ha fun q _ hq => absurd hq (hring q)
  obtain ⟨s, hs⟩ := exists_query_of_last? hb
  by_cases hheard : ∃ (q : QueryId) (spec : Spec) (c : Handle), e.IsBelow r q ∧ c ∈ changed ∧
      c ∈ host.form.pick spec.trigger ∧
        ⟨some (host.form.pick spec.trigger), .query q⟩ ∈ host.subscriptions
  · obtain ⟨q, spec, c, hq, hc, hpick, hsub⟩ := hheard
    obtain ⟨hs, automatic, hcs, htask⟩ := hnotify c hc
    refine Or.inr ⟨_, htask, q, hq.carry (carries_step ha), host', hhost', c, hcs, _,
      hsubs ▸ hsub, ?_, rfl⟩
    simpa [Subscription.covers] using hpick
  · refine Or.inl (h.holds_iff hconfig (h.step hconfig) hs (fun q u _ hu => ⟨u, ?_, rfl⟩) ?_)
    · rw [hquery, hu]
    · intro x x' hx hx' q spec hq hsub
      obtain rfl := Option.some.inj (hhost.symm.trans hx)
      obtain rfl := Option.some.inj (hhost'.symm.trans hx')
      exact hreports.agree fun c hc hpick => hheard ⟨q, spec, c, hq, hc, hpick, hsub⟩

/-! ### Chains -/

/-- `e'` is `e` after an operation of a chain that adds conditions to the query `i` at most; the first
callback of a query comes with a trigger. -/
def Develops (e : Engine) (i : Option QueryId) (e' : Engine) (tasks : List Task) : Prop :=
  ∃ c, Moves (Query.seen i c) Host.Keeps e e' ∧
    ∀ q, c = some q → e.last? q = none → .trigger q ∈ tasks

theorem Develops.of_moves {e e' : Engine} {i : Option QueryId}
    (h : Moves (Query.seen i none) Host.Keeps e e') (tasks : List Task) : e.Develops i e' tasks :=
  ⟨none, h, fun q hq => by simp at hq⟩

theorem moves_seen_refl (i c : Option QueryId) (e : Engine) :
    Moves (Query.seen i c) Host.Keeps e e := Moves.refl Host.Keeps.refl e

/-- A callback on a rule without a result has the rule triggered. -/
theorem develops_attach {e e' : Engine} (h : ∀ i c, Moves (Query.seen i c) Host.Keeps e e')
    (i : Option QueryId) (f : Facet) (cb : Callback) :
    e.Develops i (e'.attach f cb).1 (e'.attach f cb).2.2 := by
  have hadd : Moves (Query.seen i (some (e'.root (e'.root f.query)))) Host.Keeps e
      (e'.updateQuery (e'.root (e'.root f.query)) fun s =>
        { s with callbacks := s.callbacks ++ [cb] }) :=
    Moves.updateQuery (h _ _) _ (fun _ _ => ⟨rfl, fun _ hc => hc, by simp⟩)
      fun _ _ => by simp [Query.seen]
  have hlast : ∀ q, e'.last? q = e.last? q := fun q => congrArg (·.1) ((h none none).view q)
  refine ⟨some (e'.root (e'.root f.query)), ?_, fun q hq hn => ?_⟩
  · simp only [attach, addCallback]
    split
    · exact hadd
    · exact hadd.observe _
  · obtain rfl := Option.some.inj hq
    have hnone : ((e'.query? (e'.root (e'.root f.query))).getD {}).last = none :=
      (hlast _).trans hn
    simp [attach, addCallback, hnone]

/-- So has a list of actions. -/
theorem develops_attachActions (e : Engine) (i : Option QueryId) (f : Facet) (p : Polarity)
    (actions : List (Token Step)) (args : Args) :
    e.Develops i (e.attachActions f p actions args).1 (e.attachActions f p actions args).2.2 := by
  have hdirect : ∀ failing i c, Moves (Query.seen i c) Host.Keeps e (e.setDirect f.query failing) :=
    fun failing i c => (moves_seen_refl i c e).setDirect (fun _ _ _ => rfl) _ _
  unfold attachActions
  dsimp only
  split
  · exact develops_attach (hdirect false) i f _
  · exact develops_attach (hdirect true) i f _
  · exact develops_attach (fun i c => moves_seen_refl i c e) i f _

/-- An operation that takes conditions moves the results of its own rule at most. -/
theorem develops_conditionOp {table : EvaluationTable} {op : ChainOp Step} (hop : op.IsPlain table)
    (e : Engine) {f : Facet} (hk : f.kind = .condition) {i : Option QueryId}
    (hi : f.adds op = true → i = some f.query) (tasks : List Task) :
    e.Develops i (e.conditionOp f op).1 tasks := by
  have hrefl := moves_seen_refl i none e
  cases hop with
  | @when v field hv hfield =>
    obtain rfl := hi (by simp [Facet.adds, hk])
    have hcheck := (hrefl.observe (Spec.read (field.getD formAlias))).addLeaf
      (Query.seen_clauses none f.query) (.check f.host (Spec.read (field.getD formAlias)).value v)
    exact .of_moves (hcheck.listenTo f _) tasks
  | on field => exact .of_moves ((hrefl.observe _).listenTo f _) tasks
  | openBracket =>
    obtain rfl := hi (by simp [Facet.adds, hk])
    have hchild := (hrefl.addQuery (some f.query) fun _ => rfl).addLeaf
      (Query.seen_clauses none f.query) (.query e.queries.length)
    exact .of_moves (hchild.listenTo f .form) tasks
  | _ => exact .of_moves hrefl tasks

/-- An operation that takes junctions moves the results of its own rule at most. -/
theorem develops_junctionOp {table : EvaluationTable} {op : ChainOp Step} (hop : op.IsPlain table)
    (e : Engine) {f : Facet} (hk : f.kind = .junction) {i : Option QueryId}
    (hi : f.adds op = true → i = some f.query) :
    e.Develops i (e.junctionOp f op).1 (e.junctionOp f op).2.2 := by
  have hrefl := moves_seen_refl i none e
  cases hop with
  | evaluate => exact .of_moves ((hrefl.observe _).record _) _
  | or =>
    obtain rfl := hi (by simp [Facet.adds, hk])
    exact .of_moves (hrefl.addClause (Query.seen_clauses none f.query)) _
  | direct failing => exact .of_moves (hrefl.setDirect (fun _ _ _ => rfl) _ _) _
  | call hrun => exact develops_attach (fun i c => moves_seen_refl i c e) i f _
  | attach hactions => exact develops_attachActions e i f _ _ _
  | action hactions => exact develops_attachActions e i f _ _ _
  | _ => exact .of_moves hrefl _

/-- An operation of a chain moves the results of its own rule at most. -/
theorem develops_chainOp {table : EvaluationTable} {op : ChainOp Step} (hop : op.IsPlain table)
    (e : Engine) {f : Facet} {i : Option QueryId} (hi : f.adds op = true → i = some f.query) :
    e.Develops i (e.chainOp f op).1 (e.chainOp f op).2.2 := by
  unfold chainOp
  split
  · exact .of_moves ((moves_seen_refl i none e).keepRule _ _) _
  · exact .of_moves (moves_seen_refl i none e) _
  · cases hop
  · cases hop
  · split
    · next hk => exact develops_conditionOp hop e hk hi []
    · next hk => exact develops_junctionOp hop e hk hi

/-! ## Tasks -/

/-- Whether the next task adds a condition or a clause to the rule. -/
def addsTo (e : Engine) (r : QueryId) : Bool :=
  match e.agenda with
  | .chain f (op :: _) _ :: _ => f.adds op && e.root f.query == r
  | _ => false

/-- A chain keeps a rule fresh unless it adds a condition to one that was triggered. -/
theorem fresh_of_chain (hconfig : (Draft.withDefaults .builtin).build = .ok config)
    (h : e.IsPlain config) {f : Facet} {ops : List (ChainOp Step)} {name : Option String}
    (ha : e.agenda = .chain f ops name :: ts) (hfresh : e.Fresh r)
    (hroot : ∀ s, e.query? r = some s → s.parent = none)
    (hlate : e.addsTo r = true → e.last? r = none) :
    e.step.Fresh r := by
  have hplain : (Task.chain f ops name).IsPlain config.evaluations e.queries.length :=
    h.agenda _ (by simp [ha])
  have hstep : e.step = e.taken.chain f ops name := step_of_agenda ha
  cases ops with
  | nil =>
    refine fresh_of_keeps hconfig h ha hfresh ?_ fun q _ hrings => absurd hrings id
    rw [hstep]
    cases name with
    | none => exact Moves.reply (Keeps.refl _) _
    | some name => exact (Moves.keepRule (Keeps.refl _) f name).reply _
  | cons op ops =>
    obtain ⟨c, hmoves, hcalls⟩ := develops_chainOp (hplain.2 op List.mem_cons_self) e.taken (f := f)
      (i := if f.adds op then some f.query else none) fun hadds => by rw [if_pos hadds]
    refine fresh_of_moves hconfig h ha hfresh (i := if f.adds op then some f.query else none)
      (c := c) ?_ (fun q _ hrings => absurd hrings id) (fun q hq hbelow => ?_) fun hc hn => ?_
    · rw [hstep]
      exact hmoves.schedule _
    · split at hq
      · next hadds =>
        obtain rfl := Option.some.inj hq
        cases hs : e.query? r with
        | none => simp [last?, queryAt, hs]
        | some s =>
          have hr : e.root f.query = r := h.root_of_isBelow hs (hroot s hs) hbelow
          exact hlate (by simp [addsTo, ha, hadds, hr])
      · simp at hq
    · refine ⟨.trigger r, ?_, r, .root, rfl⟩
      rw [hstep]
      exact List.mem_append_left _ (List.mem_append_left _ (hcalls r hc hn))

/-- A step only starts a rule, or puts what is asked for on the agenda. -/
theorem IsPlain.keeps_performStep (h : e.IsPlain config) {s : Step}
    (hs : s.IsPlain config.evaluations) : e.Keeps (e.performStep s) := by
  obtain ⟨session, hsession, hplain⟩ := h.session
  obtain ⟨host, hhost, -⟩ := h.host
  have hfind : e.session.host.bind (fun h => (e.host? h).map fun host => (h, host)) =
      some (0, host) := by
    simp [Engine.session, hsession, h.current, hplain.host, host?, hhost]
  have hhold : e.Keeps (e.schedule [.hold [0] []]) := Moves.schedule (Keeps.refl e) _
  cases hs with
  | rule hchain =>
    simp only [Engine.performStep, hfind, hostStep]
    exact Moves.schedule (Keeps.startRule hhold 0 _) _
  | write field v automatic =>
    simp only [Engine.performStep, hfind, hostStep]
    exact hhold.schedule _
  | effect he =>
    simp only [Engine.performStep, hfind, hostStep]
    exact hhold.schedule _
  | dispatch hactions =>
    simp only [Engine.performStep, hfind, hostStep]
    exact hhold.schedule _

/-- A notification goes to those who listen, or stays for the rest of the fields. -/
theorem isRung_of_notify {i : HostId} {changed : List Handle} {automatic : Bool} {q : QueryId}
    (ha : e.agenda = .notify i changed automatic :: ts) (hq : e.step.IsBelow r q)
    (hrings : e.Rings q (.notify i changed automatic)) : e.step.IsRung r := by
  obtain ⟨host, hhost, c, hc, sub, hsub, hcovers, hlistener⟩ := hrings
  obtain ⟨host', hhost', hgrows⟩ := (extends_step ha).host i host hhost
  cases changed with
  | nil => simp at hc
  | cons f rest =>
    have hagenda := agenda_step_notify ha hhost
    rcases List.mem_cons.1 hc with rfl | hc
    · refine ⟨_, by rw [hagenda]; exact List.mem_cons_self, q, hq, ?_⟩
      exact List.mem_map.2 ⟨sub, List.mem_filter.2 ⟨hsub, hcovers⟩, hlistener⟩
    · refine ⟨.notify i rest automatic, by simp [hagenda], q, hq, host', hhost', c, hc, sub, ?_⟩
      exact ⟨hgrows.subscriptions.subset hsub, hcovers, hlistener⟩

/-- A listener that is told of a change triggers its query, or waits for its turn. -/
theorem isRung_of_inform {listeners : List Listener} {field : String} {v : Option Value}
    {automatic : Bool} {q : QueryId} (ha : e.agenda = .inform listeners field v automatic :: ts)
    (hq : e.step.IsBelow r q) (hrings : e.Rings q (.inform listeners field v automatic)) :
    e.step.IsRung r := by
  cases listeners with
  | nil => simp [Rings] at hrings
  | cons l ls =>
    have hagenda := agenda_step_inform ha
    rcases List.mem_cons.1 hrings with rfl | hmem
    · exact ⟨.trigger q, by simp [hagenda, Listener.tasks], q, hq, rfl⟩
    · exact ⟨.inform ls field v automatic, by simp [hagenda], q, hq, hmem⟩

/-- Every plain task keeps a rule fresh, unless it adds a condition to it too late. -/
theorem Fresh.step (hconfig : (Draft.withDefaults .builtin).build = .ok config)
    (h : e.IsPlain config) (hfresh : e.Fresh r)
    (hroot : ∀ s, e.query? r = some s → s.parent = none)
    (hlate : e.addsTo r = true → e.last? r = none) :
    e.step.Fresh r := by
  cases ha : e.agenda with
  | nil => simpa [Engine.step, ha] using hfresh
  | cons t ts =>
    have hplain : t.IsPlain config.evaluations e.queries.length := h.agenda t (by simp [ha])
    have hstep : e.step = e.taken.perform t := step_of_agenda ha
    have hrefl := Keeps.refl e.taken
    have hquiet : e.taken.Keeps (e.taken.perform t) → (∀ q, ¬ e.Rings q t) → e.step.Fresh r := by
      intro hkeeps hring
      rw [← hstep] at hkeeps
      exact fresh_of_keeps hconfig h ha hfresh hkeeps fun q _ hrings => absurd hrings (hring q)
    have hnever : ∀ q : QueryId, ¬ False := fun _ => id
    cases t with
    | trigger q => exact fresh_of_trigger hconfig h ha hfresh hroot
    | chain f ops name => exact fresh_of_chain hconfig h ha hfresh hroot hlate
    | effect i field effect s skip answers =>
      refine fresh_of_announces hconfig h ha hfresh ?_ hnever
      rw [hstep]
      exact announces_applyEffect h.taken i field hplain s skip answers
    | write i field v automatic =>
      refine fresh_of_announces hconfig h ha hfresh ?_ hnever
      rw [hstep]
      exact announces_write h.taken i field v automatic
    | step s => exact hquiet (h.taken.keeps_performStep hplain) hnever
    | ran step => exact hquiet (hrefl.record _) hnever
    | answer a => exact hquiet (hrefl.reply _) hnever
    | summarize q => exact absurd hplain id
    | hold hosts queries => exact hquiet hrefl hnever
    | round q state skip pending =>
      cases pending with
      | nil => exact hquiet hrefl hnever
      | cons i rest => exact hquiet (hrefl.schedule _) hnever
    | deliver q i state skip => exact hquiet (Keeps.deliver hrefl _ _ _ _) hnever
    | dispatch i tokens args negate skip report answers =>
      cases tokens with
      | nil =>
        refine hquiet ?_ hnever
        simp only [perform]
        split
        · exact hrefl.reply _
        · exact hrefl
      | cons token tokens =>
        exact hquiet (Keeps.dispatch hrefl i args negate skip report
          (.dispatch i tokens args negate skip · answers) token) hnever
    | perform i action args skip => exact hquiet (hrefl.schedule _) hnever
    | log event => exact hquiet (hrefl.record _) hnever
    | notify i changed automatic =>
      have hkeeps : e.taken.Keeps e.step := hstep ▸ Keeps.notify hrefl i changed automatic
      refine fresh_of_keeps hconfig h ha hfresh hkeeps fun q hq hrings => ?_
      exact isRung_of_notify ha (hq.carry (carries_step ha)) hrings
    | inform listeners field v automatic =>
      have hkeeps : e.taken.Keeps e.step := by
        rw [hstep]
        cases listeners with
        | nil => exact hrefl
        | cons l ls => exact Keeps.inform (hrefl.schedule _) field v automatic l
      refine fresh_of_keeps hconfig h ha hfresh hkeeps fun q hq hrings => ?_
      exact isRung_of_inform ha (hq.carry (carries_step ha)) hrings
    | flagSet listeners => exact absurd hplain id

/-! ## Between calls -/

/-- A new engine on a form, with a script to run. -/
def running (config : Config Action) (form : Form) (watched : Bool) (steps : List Step) : Engine :=
  { onForm config form watched with agenda := Task.ofScript steps }

/-- A rule stays fresh along a run that adds no condition to it after it was triggered. -/
theorem Fresh.run (hconfig : (Draft.withDefaults .builtin).build = .ok config)
    (h : e.IsPlain config) (hfresh : e.Fresh r) {n : Nat}
    (hroot : ∀ k ≤ n, ∀ u, (e.run k).query? r = some u → u.parent = none)
    (hlate : ∀ k < n, (e.run k).addsTo r = true → (e.run k).last? r = none) : (e.run n).Fresh r := by
  induction n with
  | zero => exact hfresh
  | succ n ih =>
    rw [run_succ']
    exact Fresh.step hconfig (h.run hconfig n)
      (ih (fun k hk => hroot k (by omega)) fun k hk => hlate k (by omega)) (hroot n (by omega))
      (hlate n (by omega))

/-- No task of a script's own will trigger a rule. -/
theorem not_isRung_of_suffix {steps : List Step} (h : e.agenda <:+ Task.ofScript steps) :
    ¬ e.IsRung r := by
  rintro ⟨t, ht, q, -, hrings⟩
  obtain ⟨s, -, ht⟩ := List.mem_flatMap.1 (h.subset ht)
  simp only [List.mem_cons, List.not_mem_nil, or_false] at ht
  rcases ht with rfl | rfl <;> exact hrings

/-- The last result of a rule that no task will trigger is its present one. -/
theorem Fresh.last?_of_not_isRung (hfresh : e.Fresh r) (h : e.IsPlain config) (hrung : ¬ e.IsRung r)
    {s : Query} (hs : e.query? r = some s) (hroot : s.parent = none)
    (hcallbacks : e.callbacks r ≠ []) : e.last? r = some (e.evaluate r).value := by
  have htree := h.isTree hs hroot
  cases hb : e.last? r with
  | none => exact absurd (hfresh.started hb) (not_or.2 ⟨hcallbacks, hrung⟩)
  | some b =>
    have hholds := (hfresh.result b hb).resolve_right hrung
    rw [← evaluate_iff_holds htree .root] at hholds
    rw [Bool.eq_iff_iff.2 hholds]

/-- Rules do not go stale. On any form, under the default configuration and with any plain script,
between the calls of the script (when nothing but the rest of the script is left to do) the last
result of a rule with callbacks is its present one, if no condition was added to the rule after
it was first triggered. -/
theorem last?_eq_evaluate (hconfig : (Draft.withDefaults .builtin).build = .ok config)
    (form : Form) (watched : Bool) (steps : List Step)
    (hsteps : ∀ s ∈ steps, s.IsPlain config.evaluations) (n : Nat)
    (hbetween : ((running config form watched steps).run n).agenda <:+ Task.ofScript steps)
    (r : QueryId) (s : Query)
    (hs : ((running config form watched steps).run n).query? r = some s) (hroot : s.parent = none)
    (hcallbacks : s.callbacks ≠ [])
    (hlate : ∀ k < n, ((running config form watched steps).run k).addsTo r = true →
      ((running config form watched steps).run k).last? r = none) :
    s.last = some (((running config form watched steps).run n).evaluate r).value := by
  have hplain : (running config form watched steps).IsPlain config :=
    isPlain_onForm hconfig form watched hsteps
  have hstart : (running config form watched steps).Fresh r :=
    fresh_of_none (by simp [query?, running, onForm, openSession, addHost])
  have hfresh := Fresh.run hconfig hplain hstart (fun k hk => parent_run hs hroot hk) hlate
  have hlast : ((running config form watched steps).run n).last? r = s.last := by
    rw [last?, queryAt_eq hs]
  have hcalls : ((running config form watched steps).run n).callbacks r ≠ [] := by
    simpa [callbacks, hs] using hcallbacks
  rw [← hlast]
  exact hfresh.last?_of_not_isRung (hplain.run hconfig n) (not_isRung_of_suffix hbetween) hs hroot
    hcalls

/-- A note is shown for large orders that are a gift or have a note already, and ticking the box of a
gift picks the large size. -/
def giftSteps : List Step := [
  .rule [.when (.value (.text "true")) (some "size:l"), .and, .openBracket,
    .when (.value (.text "true")) (some "gift"), .or,
    .when (.value (.text "not-empty")) (some "note"), .closeBracket,
    .attach .holding [.named "show"] [.text "note"]] none none,
  .rule [.when (.value (.text "true")) (some "gift"),
    .attach .holding [.named "val"] [.text "size", .text "l"]] none none,
  .write "gift" (.bool true) false]

/-- An order with these rules, whose box is ticked. -/
def giftOrder : Engine :=
  running .builtin
    ((((Form.empty "order").addGroup .radio "size" ["s", "l"] (some "s")).add
      { id := "gift", kind := .checkbox, value := "yes" }).add
      { id := "note", kind := .text, value := "" }) false giftSteps

theorem giftSteps_isPlain : ∀ s ∈ giftSteps, s.IsPlain Config.builtin.evaluations := by
  have hvalues : ∀ v ∈ ["true", "not-empty"],
      (Config.builtin.evaluations.lookup (.text v)).pattern ∈ Evaluation.valuePatterns := by
    decide +kernel
  have htrue := hvalues "true" (by simp)
  have hfilled := hvalues "not-empty" (by simp)
  simp only [giftSteps, List.forall_mem_cons]
  refine ⟨.rule ?_, .rule ?_, .write _ _ _, by simp⟩
  · simp only [List.forall_mem_cons]
    exact ⟨.when htrue (by decide), .and, .openBracket, .when htrue (by decide), .or,
      .when hfilled (by decide), .closeBracket, .attach (by simpa using .named (by decide)), by simp⟩
  · simp only [List.forall_mem_cons]
    exact ⟨.when htrue (by decide), .attach (by simpa using .named (by decide)), by simp⟩

set_option maxRecDepth 100000 in
/-- Ticking the box causes a round of the first rule inside one of the second, and afterwards the
last result of the first rule is its present one. -/
theorem last?_eq_evaluate_giftOrder : rounds 0 77 giftOrder = [(false, true), (true, false)] ∧
    ∃ s, (giftOrder.run 77).query? 0 = some s ∧
      s.last = some ((giftOrder.run 77).evaluate 0).value := by
  have hrun : rounds 0 77 giftOrder = [(false, true), (true, false)] ∧
      (giftOrder.run 77).agenda.length = 0 ∧
      ((giftOrder.run 77).query? 0).any (fun s => s.parent == none && s.callbacks.length != 0) ∧
      ∀ k < 77, (giftOrder.run k).addsTo 0 = true → (giftOrder.run k).last? 0 = none := by
    decide +kernel
  obtain ⟨hrounds, hbetween, hrule, hlate⟩ := hrun
  obtain ⟨s, hs, hcond⟩ := (Option.any_eq_true _ _).1 hrule
  simp only [Bool.and_eq_true, beq_iff_eq, bne_iff_ne, ne_eq, List.length_eq_zero_iff] at hcond
  refine ⟨hrounds, s, hs, ?_⟩
  exact last?_eq_evaluate Draft.build_withDefaults _ false giftSteps giftSteps_isPlain 77
    (List.length_eq_zero_iff.1 hbetween ▸ List.nil_suffix) 0 s hs hcond.1 hcond.2 hlate

/-- An order with three empty fields. -/
def lateForm : Form :=
  (((Form.empty "f").add { id := "a", kind := .text, value := "" }).add
    { id := "b", kind := .text, value := "" }).add { id := "c", kind := .text, value := "" }

/-- A rule that is kept after its first condition, and gets the second when its first field has
changed. What is written afterwards concerns neither. -/
def lateSteps : List Step := [
  .rule [.when (.value (.text "not-empty")) (some "a")] (some "rule") none,
  .write "a" (.text "x") false,
  .rule [.and, .when (.value (.text "not-empty")) (some "b"),
    .attach .holding [.named "show"] [.text "a"]] none (some "rule"),
  .write "c" (.text "y") false]

theorem lateSteps_isPlain : ∀ s ∈ lateSteps, s.IsPlain Config.builtin.evaluations := by
  have hfilled : (Config.builtin.evaluations.lookup (.text "not-empty")).pattern ∈
      Evaluation.valuePatterns := by decide +kernel
  simp only [lateSteps, List.forall_mem_cons]
  refine ⟨.rule ?_, .write _ _ _, .rule ?_, .write _ _ _, by simp⟩
  · simp only [List.forall_mem_cons]
    exact ⟨.when hfilled (by decide), by simp⟩
  · simp only [List.forall_mem_cons]
    exact ⟨.and, .when hfilled (by decide), .attach (by simpa using .named (by decide)), by simp⟩

/-- The engine that runs these steps on the form. -/
def lateOrder : Engine := running .builtin lateForm false lateSteps

set_option maxRecDepth 100000 in
/-- It is not enough that the conditions of a rule are complete before its first callback: a
condition that is added after the first trigger leaves the rule stale. -/
theorem stale_after_late_condition : ¬ ∀ (form : Form) (steps : List Step) (n : Nat) (r : QueryId)
    (s : Query), (∀ s ∈ steps, s.IsPlain Config.builtin.evaluations) →
    ((running .builtin form false steps).run n).agenda = [] →
    ((running .builtin form false steps).run n).query? r = some s → s.parent = none →
    s.callbacks ≠ [] →
    (∀ k < n, ((running .builtin form false steps).run k).addsTo r = true →
      ((running .builtin form false steps).run k).callbacks r = []) →
    s.last = some (((running .builtin form false steps).run n).evaluate r).value := by
  intro h
  have hrun : (lateOrder.run 40).agenda.length = 0 ∧
      ((lateOrder.run 40).query? 0).any (fun s =>
        s.parent == none && s.callbacks.length != 0 && s.last == some true) = true ∧
      (∀ k < 40, (lateOrder.run k).addsTo 0 = true → ((lateOrder.run k).callbacks 0).length = 0) ∧
      ((lateOrder.run 40).evaluate 0).value = false := by
    decide +kernel
  obtain ⟨hsettled, hrule, hcomplete, hvalue⟩ := hrun
  obtain ⟨s, hs, hcond⟩ := (Option.any_eq_true _ _).1 hrule
  simp only [Bool.and_eq_true, beq_iff_eq, bne_iff_ne, ne_eq, List.length_eq_zero_iff] at hcond
  have hlast := h lateForm lateSteps 40 0 s lateSteps_isPlain (List.length_eq_zero_iff.1 hsettled) hs
    hcond.1.1 hcond.1.2 fun k hk hadds => List.length_eq_zero_iff.1 (hcomplete k hk hadds)
  have hvalue' : ((running .builtin lateForm false lateSteps).run 40 |>.evaluate 0).value = false :=
    hvalue
  rw [hcond.2, hvalue'] at hlast
  simp at hlast

end Engine

end FormRules
