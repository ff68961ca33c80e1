import FormRules.Proofs.Frame
import FormRules.Proofs.Trees
import Mathlib.Data.List.Chain
import Mathlib.Data.Nat.Find

/-!
# Rounds of callbacks

A trigger starts a round of callbacks at the root of a tree. Callbacks re-enter the engine, so
rounds nest, and what a tree does is only visible along a run, task by task. `Engine.started` tells
which round the next task starts at a query, `Engine.rounds` lists those of the first tasks of a
run, and `Engine.latest` is the state of the last of them, or the result that the query had before.

`Engine.EdgeTriggered` says what a run does with the rounds at a query, and `edgeTriggered` that
every run does it, from any engine, with any scripts, rules and actions in callbacks and between
them.
-/

namespace FormRules

/-- What a listener has to do once it is told. -/
def Listener.tasks : Listener → List Task
  | .query q => [.trigger q, .hold [] [q]]
  | .script _ run => Task.ofScript run

namespace Engine

/-! ## Runs, task by task -/

/-- The engine with the next task taken from the agenda. -/
def taken (e : Engine) : Engine := { e with agenda := e.agenda.tail }

/-- The engine after the next task. -/
def step (e : Engine) : Engine :=
  match e.agenda with
  | [] => e
  | t :: _ => e.taken.perform t

/-- The next moment is what the first task makes of the rest. -/
theorem step_of_agenda {e : Engine} {t : Task} {ts : List Task} (h : e.agenda = t :: ts) :
    e.step = e.taken.perform t := by
  simp [step, h]

theorem agenda_taken {e : Engine} {t : Task} {ts : List Task} (h : e.agenda = t :: ts) :
    e.taken.agenda = ts := by
  simp [taken, h]

/-- A task extends what it was taken from. -/
theorem extends_step {e : Engine} {t : Task} {ts : List Task} (ha : e.agenda = t :: ts) :
    e.taken.Extends e.step := by
  rw [step_of_agenda ha]
  exact extends_perform e.taken t

theorem run_succ (n : Nat) (e : Engine) : e.run (n + 1) = e.step.run n := by
  cases h : e.agenda with
  | nil => rw [run_of_settled h, step, h, run_of_settled h]
  | cons t ts => simp [run, step, taken, h]

theorem run_one (e : Engine) : e.run 1 = e.step := run_succ 0 e

theorem run_succ' (n : Nat) (e : Engine) : e.run (n + 1) = (e.run n).step := by
  rw [run_add, run_succ]
  rfl

/-- A step takes at most one task from the agenda: what is below it stays. -/
theorem suffix_step {e : Engine} {base : List Task} (h : base <:+ e.agenda)
    (hlt : base.length < e.agenda.length) : base <:+ e.step.agenda := by
  cases ha : e.agenda with
  | nil => simp [ha] at hlt
  | cons t ts =>
    have hts : base <:+ ts := by
      rcases List.suffix_cons_iff.1 (ha ▸ h) with rfl | h
      · simp [ha] at hlt
      · exact h
    rw [step_of_agenda ha]
    exact hts.trans (agenda_taken ha ▸ (extends_perform e.taken t).agenda)

/-- Tasks at the bottom stay there while others are above them. -/
theorem suffix_run {e : Engine} {base : List Task} {n : Nat} (h : base <:+ e.agenda)
    (hlt : ∀ j < n, base.length < (e.run j).agenda.length) : base <:+ (e.run n).agenda := by
  induction n with
  | zero => exact h
  | succ n ih =>
    rw [run_succ']
    exact suffix_step (ih fun j hj => hlt j (by omega)) (hlt n (by omega))

/-- A run that gets down to the tasks at the bottom of its agenda has a first moment when exactly
these are left. -/
theorem exists_return {e : Engine} {base : List Task} {n : Nat} (h : base <:+ e.agenda)
    (hn : (e.run n).agenda.length ≤ base.length) :
    ∃ m ≤ n, (e.run m).agenda = base ∧ ∀ j < m, base.length < (e.run j).agenda.length := by
  classical
  have hex : ∃ m, (e.run m).agenda.length ≤ base.length := ⟨n, hn⟩
  have hlt : ∀ j < Nat.find hex, base.length < (e.run j).agenda.length :=
    fun j hj => Nat.lt_of_not_le (Nat.find_min hex hj)
  refine ⟨Nat.find hex, Nat.find_min' hex hn, ?_, hlt⟩
  have hsuffix := suffix_run h hlt
  exact (hsuffix.eq_of_length_le (Nat.find_spec hex)).symm

/-- A query without a parent is its own root. -/
theorem root_of_parent {e : Engine} {q : QueryId} (h : ∀ s, e.query? q = some s → s.parent = none) :
    e.root q = q := by
  refine root_of_isRoot ?_
  cases hs : e.query? q with
  | none => simp [isRoot, parent?, hs]
  | some s => simp [isRoot, parent?, hs, h s hs]

/-- A notification informs those who listen to its first field, and leaves the others for later. -/
theorem agenda_step_notify {e : Engine} {h : HostId} {f : Handle} {rest : List Handle}
    {automatic : Bool} {ts : List Task} (ha : e.agenda = .notify h (f :: rest) automatic :: ts)
    {host : Host} (hhost : e.host? h = some host) : e.step.agenda =
      .inform ((host.subscriptions.filter (·.covers f)).map Subscription.listener)
        (((host.form.field? f).map FieldState.id).getD "") (host.form.value? f) automatic ::
        .notify h rest automatic :: ts := by
  have hhost' : e.taken.host? h = some host := hhost
  rw [step_of_agenda ha]
  simp only [perform, notify, hhost']
  rw [← agenda_taken ha]
  cases automatic <;> rfl

/-- A listener goes to work in front of those who are informed after it. -/
theorem agenda_step_inform {e : Engine} {l : Listener} {ls : List Listener} {field : String}
    {v : Option Value} {automatic : Bool} {ts : List Task}
    (ha : e.agenda = .inform (l :: ls) field v automatic :: ts) :
    e.step.agenda = l.tasks ++ .inform ls field v automatic :: ts := by
  rw [step_of_agenda ha, ← agenda_taken ha]
  cases l <;> rfl

/-! ## What a trigger does -/

/-- Whether the tree of a root query is paused. -/
def isPaused (e : Engine) (r : QueryId) : Bool := ((e.query? r).getD {}).paused

/-- The callbacks of a query. -/
def callbacks (e : Engine) (r : QueryId) : List Callback := ((e.query? r).getD {}).callbacks

/-- The engine at the start of a round at `r`: the result is kept, and the callbacks are due. -/
def startRound (e : Engine) (r : QueryId) (state skip : Bool) : Engine :=
  (((e.record (e.evaluate r).events).updateQuery r fun s => { s with last := some state }).note
    (.stateChanged state skip)).schedule [.round r state skip (List.range (e.callbacks r).length)]

/-- A trigger notes that the tree is paused, or evaluates the tree and starts a round if the result
is not the last one. -/
theorem trigger_eq (e : Engine) (q : QueryId) :
    e.trigger q =
      if e.isPaused (e.root q) = true then e.note .triggerIgnored
      else if e.last? (e.root q) = some (e.evaluate (e.root q)).value then
        e.record (e.evaluate (e.root q)).events
      else e.startRound (e.root q) (e.evaluate (e.root q)).value (e.last? (e.root q)).isNone := rfl

/-- A trigger leaves hosts alone. -/
theorem hosts_trigger (e : Engine) (q : QueryId) : (e.trigger q).hosts = e.hosts := by
  rw [trigger_eq]
  split
  · rfl
  · split <;> rfl

/-- What a trigger can do: nothing to the queries and the agenda, or start a round at the root. -/
theorem trigger_cases (e : Engine) (q : QueryId) :
    ((e.isPaused (e.root q) = true ∨ e.last? (e.root q) = some (e.evaluate (e.root q)).value) ∧
      (e.trigger q).queries = e.queries ∧ (e.trigger q).agenda = e.agenda) ∨
    (e.isPaused (e.root q) = false ∧ e.last? (e.root q) ≠ some (e.evaluate (e.root q)).value ∧
      e.trigger q =
        e.startRound (e.root q) (e.evaluate (e.root q)).value (e.last? (e.root q)).isNone) := by
  rw [trigger_eq]
  split
  · next hp => exact Or.inl ⟨Or.inl hp, rfl, rfl⟩
  · next hp =>
    split
    · next hl => exact Or.inl ⟨Or.inr hl, rfl, rfl⟩
    · next hl => exact Or.inr ⟨Bool.eq_false_iff.2 hp, hl, rfl⟩

/-- A callback is added at the root of the tree and nowhere else. -/
theorem query?_addCallback (e : Engine) (q r : QueryId) (c : Callback) :
    (e.addCallback q c).2.query? r =
      if e.root q = r then (e.query? r).map fun s => { s with callbacks := s.callbacks ++ [c] }
      else e.query? r := by
  rw [← query?_updateQuery]
  unfold addCallback
  dsimp only
  split
  · rfl
  · rfl

/-- A round that starts leaves its result with its query. -/
theorem query?_startRound (e : Engine) (r q : QueryId) (state skip : Bool) :
    (e.startRound r state skip).query? q =
      if r = q then (e.query? q).map fun s => { s with last := some state } else e.query? q := by
  rw [startRound, ← query?_updateQuery]
  rfl

/-- A trigger is over at once, on a paused tree or for a result that is no news, or starts a round
at the root. -/
theorem step_trigger_cases {e : Engine} {q : QueryId} {ts : List Task}
    (h : e.agenda = .trigger q :: ts) :
    ((e.isPaused (e.taken.root q) = true ∨
        e.last? (e.taken.root q) = some (e.taken.evaluate (e.taken.root q)).value) ∧
      e.step.queries = e.queries ∧ e.step.agenda = e.taken.agenda) ∨
    (e.isPaused (e.taken.root q) = false ∧
      e.last? (e.taken.root q) ≠ some (e.taken.evaluate (e.taken.root q)).value ∧
      e.step = e.taken.startRound (e.taken.root q) (e.taken.evaluate (e.taken.root q)).value
        (e.last? (e.taken.root q)).isNone) := by
  rw [step_of_agenda h]
  exact trigger_cases e.taken q

/-! ## The rounds of a run -/

/-- The round that the next task starts at `r`, if it does: its state, and whether it is the
first. -/
def started (e : Engine) (r : QueryId) : Option (Bool × Bool) :=
  match e.agenda, e.step.agenda with
  | .trigger _ :: rest, .round q state skip _ :: rest' =>
    if q = r ∧ rest'.length = rest.length then some (state, skip) else none
  | _, _ => none

/-- The rounds that the first `n` tasks start at `r`. -/
def rounds (r : QueryId) : Nat → Engine → List (Bool × Bool)
  | 0, _ => []
  | n + 1, e => (e.started r).toList ++ rounds r n e.step

/-- The state of the last round that the first `n` tasks start at `r`; before any, the result that
`r` had. -/
def latest (e : Engine) (r : QueryId) (n : Nat) : Option Bool :=
  ((rounds r n e).getLast?.map Prod.fst).or (e.last? r)

variable {e : Engine} {r : QueryId}

/-- What a trigger starts at `r`. -/
theorem started_trigger {q : QueryId} {ts : List Task} (h : e.agenda = .trigger q :: ts) :
    e.started r =
      if e.taken.root q = r ∧ e.isPaused r = false ∧ e.last? r ≠ some (e.taken.evaluate r).value then
        some ((e.taken.evaluate r).value, (e.last? r).isNone)
      else none := by
  rcases step_trigger_cases h with ⟨hno, -, ha⟩ | ⟨hp, hl, hstep⟩
  · have hnone : e.started r = none := by
      simp only [started, h, ha, agenda_taken h]
      cases ts with
      | nil => rfl
      | cons t ts => cases t <;> simp
    rw [hnone, if_neg]
    rintro ⟨rfl, hp, hl⟩
    rcases hno with hp' | hl'
    · simp [hp] at hp'
    · exact hl hl'
  · have hstarted : e.started r = if e.taken.root q = r then
        some ((e.taken.evaluate (e.taken.root q)).value,
          (e.last? (e.taken.root q)).isNone) else none := by
      simp [started, h, hstep, startRound, schedule, record, note, updateQuery, agenda_taken h]
    rw [hstarted]
    by_cases hr : e.taken.root q = r
    · subst hr
      rw [if_pos rfl, if_pos ⟨rfl, hp, hl⟩]
    · simp [hr]

/-- Only triggers start rounds. -/
theorem started_of_not_trigger {t : Task} {ts : List Task} (h : e.agenda = t :: ts)
    (ht : t.isTrigger = false) : e.started r = none := by
  cases t with
  | trigger q => simp [Task.isTrigger] at ht
  | _ => simp [started, h]

theorem eq_trigger {t : Task} (ht : t.isTrigger = true) : ∃ q, t = .trigger q := by
  cases t with
  | trigger q => exact ⟨q, rfl⟩
  | _ => simp [Task.isTrigger] at ht

/-- The round that a trigger starts is on top of what was waiting, with all callbacks pending. -/
theorem step_of_started {s : Query} (hs : e.query? r = some s) {state skip : Bool}
    (h : e.started r = some (state, skip)) : e.step.query? r = some { s with last := some state } ∧
      e.step.agenda =
        .round r state skip (List.range s.callbacks.length) :: e.taken.agenda := by
  cases ha : e.agenda with
  | nil => simp [started, ha] at h
  | cons t ts =>
    cases ht : t.isTrigger with
    | false => simp [started_of_not_trigger ha ht] at h
    | true =>
      obtain ⟨q, rfl⟩ := eq_trigger ht
      rw [started_trigger ha] at h
      split at h
      · next hcond =>
        obtain ⟨rfl, hp, hl⟩ := hcond
        obtain ⟨rfl, rfl⟩ := Prod.mk.inj (Option.some.inj h)
        rcases step_trigger_cases ha with ⟨hp' | hl', -⟩ | ⟨-, -, hstep⟩
        · simp [hp] at hp'
        · exact absurd hl' hl
        · have hs' : e.taken.query? (e.taken.root q) = some s := hs
          refine ⟨by rw [hstep, query?_startRound, hs', if_pos rfl]; rfl, ?_⟩
          simp [hstep, startRound, schedule, record, note, updateQuery, callbacks, hs']
      · simp at h

/-- A result that is kept changes with a round only. -/
theorem last?_step_of_not_started (h : e.started r = none) : e.step.last? r = e.last? r := by
  cases ha : e.agenda with
  | nil => rw [step, ha]
  | cons t ts =>
    cases ht : t.isTrigger with
    | false =>
      rw [step_of_agenda ha]
      exact (grows_perform e.taken ht).view r
    | true =>
      obtain ⟨q, rfl⟩ := eq_trigger ht
      rcases step_trigger_cases ha with ⟨-, hqueries, -⟩ | ⟨hp, hl, hstep⟩
      · rw [last?, last?, queryAt, queryAt, query?, query?, hqueries]
      · have hr : e.taken.root q ≠ r := by
          rintro rfl
          rw [started_trigger ha, if_pos ⟨rfl, hp, hl⟩] at h
          simp at h
        rw [hstep, last?, queryAt, query?_startRound, if_neg hr]
        rfl

/-- A step changes the last result of a query by starting a round there, and in no other way. -/
theorem last?_step {s : Query} (hs : e.query? r = some s) :
    e.step.last? r = ((e.started r).map Prod.fst).or (e.last? r) := by
  cases hstarted : e.started r with
  | none => simp [last?_step_of_not_started hstarted]
  | some round =>
    obtain ⟨hquery, -⟩ := step_of_started hs hstarted
    simp [last?, queryAt_eq hquery]

/-- Queries stay where they are, and keep their callbacks. -/
theorem query?_step {s : Query} (hs : e.query? r = some s) : ∃ t, e.step.query? r = some t ∧
    s.callbacks.map Callback.unspent <+: t.callbacks.map Callback.unspent := by
  cases ha : e.agenda with
  | nil => exact ⟨s, by simpa [step, ha] using hs, List.prefix_rfl⟩
  | cons t ts =>
    obtain ⟨s', hs', hgrows⟩ := (extends_perform e.taken t).query r s hs
    exact ⟨s', by rwa [step_of_agenda ha], hgrows.callbacks⟩

/-- A query and its callbacks stay along a run, and others are added behind them. -/
theorem query?_run {s : Query} (hs : e.query? r = some s) (n : Nat) :
    ∃ t, (e.run n).query? r = some t ∧
      s.callbacks.map Callback.unspent <+: t.callbacks.map Callback.unspent := by
  induction n with
  | zero => exact ⟨s, hs, List.prefix_rfl⟩
  | succ n ih =>
    obtain ⟨t, ht, hst⟩ := ih
    obtain ⟨u, hu, htu⟩ := query?_step ht
    exact ⟨u, by rwa [run_succ'], hst.trans htu⟩

/-- A query that is a root always was. -/
theorem parent_run {s : Query} {n : Nat} (hs : (e.run n).query? r = some s)
    (hroot : s.parent = none) {k : Nat} (hk : k ≤ n) :
    ∀ u, (e.run k).query? r = some u → u.parent = none := by
  intro u hu
  obtain ⟨m, rfl⟩ : ∃ m, n = k + m := ⟨n - k, by omega⟩
  have hextends : ∀ m, ∃ t, (e.run (k + m)).query? r = some t ∧ t.parent = u.parent := by
    intro m
    induction m with
    | zero => exact ⟨u, hu, rfl⟩
    | succ m ih =>
      obtain ⟨t, ht, hparent⟩ := ih
      cases ha : (e.run (k + m)).agenda with
      | nil => exact ⟨t, by rw [← Nat.add_assoc, run_succ', step, ha]; exact ht, hparent⟩
      | cons task tasks =>
        obtain ⟨t', ht', hgrows⟩ := (extends_step ha).query r t ht
        exact ⟨t', by rw [← Nat.add_assoc, run_succ']; exact ht', hgrows.parent.trans hparent⟩
  obtain ⟨t, ht, hparent⟩ := hextends m
  obtain rfl := Option.some.inj (ht.symm.trans hs)
  exact hparent.symm.trans hroot

/-- The last round of a run is the one that its last task starts, if it does. -/
theorem rounds_succ' (n : Nat) (e : Engine) :
    rounds r (n + 1) e = rounds r n e ++ ((e.run n).started r).toList := by
  induction n generalizing e with
  | zero => simp [rounds, run]
  | succ n ih => rw [rounds, ih, rounds, List.append_assoc, run_succ]

/-- The last result of a query is the state of the last round. -/
theorem last?_run {s : Query} (hs : e.query? r = some s) (n : Nat) :
    (e.run n).last? r = e.latest r n := by
  induction n with
  | zero => simp [latest, rounds, run]
  | succ n ih =>
    obtain ⟨t, ht, -⟩ := query?_run hs n
    rw [run_succ', last?_step ht, ih, latest, latest, rounds_succ']
    cases (e.run n).started r <;> simp

/-- A round is started with the flag exactly if the query had no result, and on a result that
differs from the one it had. -/
theorem of_started {b skip : Bool} (h : e.started r = some (b, skip)) :
    skip = (e.last? r).isNone ∧ e.last? r ≠ some b := by
  cases ha : e.agenda with
  | nil => simp [started, ha] at h
  | cons t ts =>
    cases ht : t.isTrigger with
    | false => simp [started_of_not_trigger ha ht] at h
    | true =>
      obtain ⟨q, rfl⟩ := eq_trigger ht
      rw [started_trigger ha] at h
      split at h
      · next hcond =>
        obtain ⟨rfl, rfl⟩ := Prod.mk.inj (Option.some.inj h)
        exact ⟨rfl, hcond.2.2⟩
      · simp at h

/-- Each round of a query differs from the one before it. -/
theorem rounds_isChain {s : Query} (hs : e.query? r = some s) (n : Nat) :
    ((e.last? r).toList ++ (rounds r n e).map Prod.fst).IsChain (· ≠ ·) := by
  induction n generalizing e s with
  | zero => cases e.last? r <;> simp [rounds]
  | succ n ih =>
    obtain ⟨t, ht, -⟩ := query?_step hs
    have hrest := ih ht
    rw [last?_step hs] at hrest
    cases hstart : e.started r with
    | none => simpa [rounds, hstart] using hrest
    | some round =>
      obtain ⟨b, skip⟩ := round
      obtain ⟨-, hb⟩ := of_started hstart
      have hrest' : (b :: (rounds r n e.step).map Prod.fst).IsChain (· ≠ ·) := by
        simpa [hstart] using hrest
      cases hl : e.last? r with
      | none => simpa [rounds, hstart] using hrest'
      | some l =>
        have hne : l ≠ b := fun h => hb (by rw [hl, h])
        simpa [rounds, hstart] using List.IsChain.cons_cons hne hrest'

/-- The first round of a query that had none is marked, and no other. -/
theorem rounds_skip {s : Query} (hs : e.query? r = some s) {n i : Nat} {b skip : Bool}
    (hi : (rounds r n e)[i]? = some (b, skip)) : skip = true ↔ i = 0 ∧ e.last? r = none := by
  induction n generalizing e s i with
  | zero => simp [rounds] at hi
  | succ n ih =>
    obtain ⟨t, ht, -⟩ := query?_step hs
    cases hstart : e.started r with
    | none =>
      have hl : e.step.last? r = e.last? r := by simp [last?_step hs, hstart]
      rw [← hl]
      exact ih ht (by simpa [rounds, hstart] using hi)
    | some round =>
      obtain ⟨b', skip'⟩ := round
      have hl : e.step.last? r = some b' := by simp [last?_step hs, hstart]
      cases i with
      | zero =>
        obtain ⟨rfl, rfl⟩ : b' = b ∧ skip' = skip := by simpa [rounds, hstart] using hi
        simp [(of_started hstart).1]
      | succ i =>
        have := ih ht (by simpa [rounds, hstart] using hi)
        simp [hl] at this
        simp [this]

/-! ## The calls of a round -/

/-- The callback that is called next, if it is the turn of a round on top of `depth` tasks: with the
state and the flag that it is called with. -/
def called (e : Engine) (depth : Nat) : Option (Callback × Bool × Bool) :=
  match e.agenda, e.step.agenda with
  | .round _ _ _ (_ :: _) :: rest, .deliver q i state skip :: .round .. :: _ =>
    if rest.length = depth then
      ((e.step.callbacks q)[i]?).map fun c => (c.unspent, state, skip)
    else none
  | _, _ => none

/-- The callbacks that rounds on top of `depth` tasks call during the first `n` tasks. -/
def calls (depth : Nat) : Nat → Engine → List (Callback × Bool × Bool)
  | 0, _ => []
  | n + 1, e => (e.called depth).toList ++ calls depth n e.step

/-- The calls of a run are those of its stretches. -/
theorem calls_add (depth m n : Nat) (e : Engine) :
    calls depth (m + n) e = calls depth m e ++ calls depth n (e.run m) := by
  induction m generalizing e with
  | zero => simp [calls, run]
  | succ m ih => rw [Nat.succ_add, calls, ih, calls, List.append_assoc, run_succ]

/-- At a different depth nobody is called. -/
theorem called_of_length_ne {depth : Nat} (h : e.agenda.length ≠ depth + 1) :
    e.called depth = none := by
  unfold called
  split
  · next rest _ _ _ _ _ _ _ _ _ heq _ =>
    have : rest.length ≠ depth := by simpa [heq] using h
    simp [this]
  · rfl

/-- While other work is on top nobody is called. -/
theorem calls_eq_nil {depth n : Nat} (h : ∀ j < n, depth + 1 < (e.run j).agenda.length) :
    calls depth n e = [] := by
  induction n generalizing e with
  | zero => rfl
  | succ n ih =>
    have h0 : depth + 1 < e.agenda.length := h 0 (by omega)
    rw [calls, called_of_length_ne (by omega), ih fun j hj => by simpa [run_succ] using h (j + 1) (by omega)]
    rfl

/-- A round that gets to its end calls its callbacks one by one, each once the one before has come
to its end, whatever they do on the way. The callbacks `cs` are those registered when it started;
others may have come since. Each delivery runs on top of the rest of the round, until that is on top
again. -/
theorem calls_round {q : QueryId} {state skip : Bool} {cs : List Callback} {pending : List Nat}
    {rest : List Task} {n : Nat} {s : Query} (h : e.agenda = .round q state skip pending :: rest)
    (hs : e.query? q = some s) (hcs : cs <+: s.callbacks.map Callback.unspent)
    (hpending : ∀ i ∈ pending, i < cs.length) (hn : (e.run n).agenda.length = rest.length)
    (hlt : ∀ j < n, rest.length < (e.run j).agenda.length) :
    (e.run n).agenda = rest ∧ calls rest.length n e =
      pending.filterMap fun i => cs[i]?.map fun c => (c, state, skip) := by
  induction pending generalizing e n s with
  | nil =>
    have hstep : e.step.agenda = rest := by simp [step, taken, h, perform]
    obtain ⟨n, rfl⟩ : ∃ k, n = k + 1 := by
      refine ⟨n - 1, ?_⟩
      have : n ≠ 0 := by rintro rfl; simp [run, h] at hn
      omega
    obtain rfl : n = 0 := by
      by_contra hne
      have := hlt 1 (by omega)
      rw [run_one, hstep] at this
      exact Nat.lt_irrefl _ this
    exact ⟨by rw [run_one, hstep], by simp [calls, called, h]⟩
  | cons i pending ih =>
    have hstep : e.step.agenda = .deliver q i state skip :: .round q state skip pending :: rest := by
      simp [step, taken, h, perform, schedule]
    obtain ⟨n, rfl⟩ : ∃ k, n = k + 1 := by
      refine ⟨n - 1, ?_⟩
      have : n ≠ 0 := by rintro rfl; simp [run, h] at hn
      omega
    rw [run_succ] at hn
    have hlt' : ∀ j < n, rest.length < (e.step.run j).agenda.length :=
      fun j hj => by simpa [run_succ] using hlt (j + 1) (by omega)
    have hsuffix : (.round q state skip pending :: rest) <:+ e.step.agenda :=
      hstep ▸ List.suffix_cons _ _
    obtain ⟨m, hm, hreturn, habove⟩ := exists_return hsuffix (n := n) (by simp [hn])
    obtain ⟨k, rfl⟩ : ∃ k, n = m + k := ⟨n - m, by omega⟩
    obtain ⟨t, ht, hst⟩ := query?_step hs
    obtain ⟨u, hu, htu⟩ := query?_run ht m
    have hnext := ih hreturn hu (hcs.trans (hst.trans htu))
      (fun j hj => hpending j (List.mem_cons_of_mem i hj)) (n := k) (by rw [← run_add, hn])
      (fun j hj => by rw [← run_add]; exact hlt' (m + j) (by omega))
    have hi : i < cs.length := hpending i List.mem_cons_self
    have hcall : e.called rest.length = some (cs[i], state, skip) := by
      have hci : (t.callbacks.map Callback.unspent)[i]? = some cs[i] :=
        List.prefix_iff_getElem?.1 (hcs.trans hst) i hi
      rw [List.getElem?_map] at hci
      obtain ⟨c, hc, hcu⟩ := Option.map_eq_some_iff.1 hci
      simp [called, h, hstep, callbacks, ht, hc, hcu]
    refine ⟨by rw [run_succ, run_add]; exact hnext.1, ?_⟩
    rw [calls, calls_add, calls_eq_nil (fun j hj => by simpa using habove j hj), hnext.2, hcall]
    simp [hi]

/-! ## Edge triggering -/

/-- What every run does with the rounds at the query `r`, from the engine `e` on. -/
structure EdgeTriggered (e : Engine) (r : QueryId) : Prop where
  /-- A trigger of a node of a tree that is not paused starts a round exactly if the OR of ANDs of
  the tree is not the state of the last round, and the flag tells whether there was none. -/
  fires : ∀ n q depth, (e.run n).agenda.head? = some (.trigger q) → (e.run n).taken.IsTree r →
    (e.run n).taken.IsNode r depth q → (e.run n).isPaused r = false →
    ∃ state, (state = true ↔ (e.run n).taken.Holds r) ∧ (e.run n).started r =
      if e.latest r n = some state then none else some (state, (e.latest r n).isNone)
  /-- While the tree is paused no round starts, and the last result stays what it was. -/
  sleeps : ∀ n k, (∀ j < k, (e.run (n + j)).isPaused r = true) →
    rounds r k (e.run n) = [] ∧ (e.run (n + k)).last? r = (e.run n).last? r
  /-- Pausing or resuming a node pauses or resumes the tree. -/
  pauses : ∀ n q depth paused, (e.run n).IsTree r → (e.run n).IsNode r depth q →
    ((e.run n).setPaused q paused).isPaused r = paused
  /-- A callback added to a node is the last callback of the tree. -/
  registers : ∀ n q depth c, (e.run n).IsTree r → (e.run n).IsNode r depth q →
    ((e.run n).addCallback q c).2.callbacks r = (e.run n).callbacks r ++ [c]
  /-- The last result is the state of the last round: nothing but a round changes it. -/
  latch : ∀ n, (e.run n).last? r = e.latest r n
  /-- The states of the rounds alternate. -/
  alternates : ∀ n, ((e.last? r).toList ++ (rounds r n e).map Prod.fst).IsChain (· ≠ ·)
  /-- The first round of a query that had no result has the flag, and no other round. -/
  skips : ∀ n i state skip, (rounds r n e)[i]? = some (state, skip) →
    (skip = true ↔ i = 0 ∧ e.last? r = none)
  /-- A round that gets to its end, which is when what was waiting below it is on top again, calls
  every callback registered when it started once and in order, with its state and its flag. -/
  calls : ∀ n m state skip, (e.run n).started r = some (state, skip) →
    (e.run (n + 1 + m)).agenda.length = (e.run n).taken.agenda.length →
    (∀ j < m, (e.run n).taken.agenda.length < (e.run (n + 1 + j)).agenda.length) →
    (e.run (n + 1 + m)).agenda = (e.run n).taken.agenda ∧
      calls (e.run n).taken.agenda.length m (e.run (n + 1)) =
        ((e.run n).callbacks r).map fun c => (c.unspent, state, skip)

/-- On a paused tree no round starts. -/
theorem started_of_isPaused (h : e.isPaused r = true) : e.started r = none := by
  cases ha : e.agenda with
  | nil => simp [started, ha]
  | cons t ts =>
    cases ht : t.isTrigger with
    | false => exact started_of_not_trigger ha ht
    | true =>
      obtain ⟨q, rfl⟩ := eq_trigger ht
      simp [started_trigger ha, h]

/-- While a tree is paused it has no rounds. -/
theorem rounds_eq_nil {n : Nat} (h : ∀ j < n, (e.run j).isPaused r = true) :
    rounds r n e = [] := by
  induction n generalizing e with
  | zero => rfl
  | succ n ih =>
    have h0 : e.isPaused r = true := h 0 (by omega)
    rw [rounds, started_of_isPaused h0, ih fun j hj => by simpa [run_succ] using h (j + 1) (by omega)]
    rfl

theorem exists_agenda {q : QueryId} (h : e.agenda.head? = some (.trigger q)) :
    ∃ ts, e.agenda = .trigger q :: ts := by
  cases ha : e.agenda with
  | nil => simp [ha] at h
  | cons t ts => exact ⟨ts, by simp_all⟩

theorem filterMap_range_getElem? {α β : Type} (f : α → β) (xs : List α) :
    ((List.range xs.length).filterMap fun i => xs[i]?.map f) = xs.map f := by
  induction xs with
  | nil => rfl
  | cons x xs ih =>
    simp only [List.length_cons, List.range_succ_eq_map, List.filterMap_cons, List.filterMap_map]
    simpa [Function.comp_def] using ih

/-- Every run deals with the rounds of a query as `EdgeTriggered` says. -/
theorem edgeTriggered {s : Query} (hs : e.query? r = some s) : e.EdgeTriggered r where
  fires := by
    intro n q depth hhead htree hnode hp
    obtain ⟨ts, ha⟩ := exists_agenda hhead
    refine ⟨((e.run n).taken.evaluate r).value, evaluate_iff_holds htree .root, ?_⟩
    rw [started_trigger ha, root_of_isNode htree hnode, last?_run hs n, hp]
    by_cases hl : e.latest r n = some ((e.run n).taken.evaluate r).value <;> simp [hl]
  sleeps := by
    intro n k hp
    obtain ⟨t, ht, -⟩ := query?_run hs n
    have hrounds : rounds r k (e.run n) = [] := rounds_eq_nil fun j hj => by
      rw [← run_add]
      exact hp j hj
    exact ⟨hrounds, by rw [run_add, last?_run ht, latest, hrounds]; rfl⟩
  pauses := by
    intro n q depth paused htree hnode
    obtain ⟨t, ht, -⟩ := query?_run hs n
    simp [setPaused, root_of_isNode htree hnode, isPaused, query?_updateQuery, ht]
  registers := by
    intro n q depth c htree hnode
    obtain ⟨t, ht, -⟩ := query?_run hs n
    have hroot := root_of_isNode htree hnode
    rw [callbacks, query?_addCallback, hroot]
    simp [callbacks, ht]
  latch := last?_run hs
  alternates := rounds_isChain hs
  skips _ _ _ _ hi := rounds_skip hs hi
  calls := by
    intro n m state skip hstart hm habove
    obtain ⟨t, ht, -⟩ := query?_run hs n
    obtain ⟨hquery, hagenda⟩ := step_of_started ht hstart
    rw [← run_succ'] at hquery hagenda
    have hround := calls_round (n := m) hagenda hquery List.prefix_rfl
      (fun i hi => by simpa using List.mem_range.1 hi) (by rw [← run_add, hm])
      (fun j hj => by rw [← run_add]; exact habove j hj)
    refine ⟨by rw [run_add]; exact hround.1, ?_⟩
    rw [hround.2]
    simp only [callbacks, ht, Option.getD_some, List.getElem?_map, Option.map_map]
    exact filterMap_range_getElem? _ t.callbacks

/-- A tree of two queries with a flag below its bracket. The first callback sets the flag and
triggers the bracket, so a second round runs inside the first. -/
def nestedRounds : Engine where
  sessions := [{ queries := [("root", 0), ("bracket", 1)] }]
  queries := [{ clauses := [[.query 1]] }, { parent := some 0, clauses := [[.flag ⟨0, "a"⟩ false]] }]
  agenda := Task.ofScript [
    .query "bracket" (.callback "first" [.setFlag "a" true, .query "bracket" .trigger]),
    .query "root" (.callback "second" []),
    .query "bracket" .pause, .setFlag "a" false, .query "root" .trigger,
    .query "root" .resume, .query "bracket" .trigger]

/-- The query of the nested rounds is a tree of its own. -/
theorem isTree_nestedRounds : nestedRounds.IsTree 0 where
  root := ⟨_, rfl, rfl⟩
  held := by decide
  bracket := by
    intro n p s q hp hs hq
    obtain ⟨clause, hc, hl⟩ := Query.mentions_iff.1 hq
    match p, hs with
    | 0, hs =>
      obtain rfl : s = { clauses := [[.query 1]] } := (Option.some.inj hs).symm
      obtain rfl : q = 1 := by simp_all
      exact ⟨_, rfl, rfl⟩
    | 1, hs =>
      obtain rfl : s = { parent := some 0, clauses := [[.flag ⟨0, "a"⟩ false]] } :=
        (Option.some.inj hs).symm
      simp_all
    | p + 2, hs => simp [query?, nestedRounds] at hs

/-- Of the four rounds of `nestedRounds`, the second runs inside the first; the third is started by
the first trigger after the pause, and the fourth runs inside it. -/
theorem edgeTriggered_nestedRounds : nestedRounds.query? 0 = some { clauses := [[.query 1]] } ∧
    nestedRounds.IsTree 0 ∧ nestedRounds.EdgeTriggered 0 ∧
    rounds 0 86 nestedRounds = [(false, true), (true, false), (false, false), (true, false)] ∧
    (nestedRounds.run 86).agenda.length = 0 :=
  ⟨rfl, isTree_nestedRounds, edgeTriggered (s := { clauses := [[.query 1]] }) rfl, by decide,
    by decide⟩

end Engine

end FormRules
