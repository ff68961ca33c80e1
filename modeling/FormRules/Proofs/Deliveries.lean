import FormRules.Proofs.Beats
import FormRules.Proofs.Freshness
import Mathlib.Algebra.Group.Nat.Even

/-!
# What callbacks are told last

A round hands its callbacks the state that it was started with. If one of them makes the rule
change its result, a round with the new state runs to its end inside the first, and then the first
goes on: the callbacks behind are told the new state first and the old one last. So after a cascade
the last state that a callback was told need not be the last result of the rule.

`Engine.delivered_iff` says when it is. The last call of a callback belongs to a round that is still
running (`Engine.RoundRuns`), and what counts is how many other rounds of the rule have started
inside it by then: results alternate, so the state is still the rule's result if their number is
even. There are none before the first callback of a rule has its turn. A callback that no round has
reached since it was added was told what the rule came to then.
-/

namespace FormRules

/-- Whether the task will call the callback of `r` at position `i`. -/
def Task.isDue (r : QueryId) (i : Nat) : Task → Bool
  | .round q _ _ pending => q == r && pending.contains i
  | .deliver q j _ _ => q == r && j == i
  | _ => false

namespace Engine

/-! ## Calls -/

/-- The state that the callback of `r` at position `i` is about to be called with. -/
def delivers (e : Engine) (r : QueryId) (i : Nat) : Option Bool :=
  match e.agenda with
  | .deliver q j state _ :: _ => if q = r ∧ j = i then some state else none
  | _ => none

/-- Of the first `n` tasks, `t` is the last that calls the callback, and it does so with the
state `b`. -/
structure LastDelivery (e : Engine) (r : QueryId) (i n t : Nat) (b : Bool) : Prop where
  before : t < n
  state : (e.run t).delivers r i = some b
  last : ∀ j, t < j → j < n → (e.run j).delivers r i = none

/-- After `n` tasks, the round that task `k` has started on top of the tasks `base` is not over. -/
structure RoundRuns (e : Engine) (r : QueryId) (state skip : Bool) (base : List Task) (k n : Nat) :
    Prop where
  before : k < n
  started : (e.run k).started r = some (state, skip)
  below : (e.run k).taken.agenda = base
  above : ∀ j, k < j → j ≤ n → base.length < (e.run j).agenda.length

variable {e : Engine} {r : QueryId} {i n : Nat}

theorem LastDelivery.unique {t t' : Nat} {b b' : Bool} (h : e.LastDelivery r i n t b)
    (h' : e.LastDelivery r i n t' b') : t = t' ∧ b = b' := by
  have hle : ∀ {t t' b b'}, e.LastDelivery r i n t b → e.LastDelivery r i n t' b' → t' ≤ t := by
    intro t t' b b' h h'
    by_contra hlt
    have hnone := h.last t' (by omega) h'.before
    simp [h'.state] at hnone
  obtain rfl : t = t' := Nat.le_antisymm (hle h' h) (hle h h')
  exact ⟨rfl, Option.some.inj (h.state.symm.trans h'.state)⟩

/-! ## Results and rounds -/

theorem exists_query? (h : i < (e.callbacks r).length) : ∃ s, e.query? r = some s := by
  cases hs : e.query? r with
  | none => simp [callbacks, hs] at h
  | some s => exact ⟨s, rfl⟩

/-- Each round turns the result over. -/
theorem last?_run_of_some {s : Query} (hs : e.query? r = some s) {b : Bool}
    (hb : e.last? r = some b) (m : Nat) :
    (e.run m).last? r = some (if Even (rounds r m e).length then b else !b) := by
  induction m with
  | zero => simpa [run, rounds] using hb
  | succ m ih =>
    obtain ⟨t, ht, -⟩ := query?_run hs m
    rw [run_succ', last?_step ht, rounds_succ']
    cases hstarted : (e.run m).started r with
    | none => simpa using ih
    | some round =>
      obtain ⟨c, skip⟩ := round
      have hc : some (if Even (rounds r m e).length then b else !b) ≠ some c :=
        ih ▸ (of_started hstarted).2
      have hodd : Even ((rounds r m e) ++ [(c, skip)]).length ↔ ¬ Even (rounds r m e).length := by
        rw [List.length_append, List.length_singleton, Nat.even_add_one]
      simp only [Option.map_some, Option.some_or, Option.toList_some, hodd]
      by_cases heven : Even (rounds r m e).length <;> cases b <;> cases c <;> simp_all

theorem last?_run_iff_even {s : Query} (hs : e.query? r = some s) {b : Bool}
    (hb : e.last? r = some b) (m : Nat) :
    (e.run m).last? r = some b ↔ Even (rounds r m e).length := by
  rw [last?_run_of_some hs hb]
  split
  · next h => simp [h]
  · next h => cases b <;> simp [h]

/-- Without rounds the result stays. -/
theorem last?_run_of_not_started {m n : Nat} (hmn : m ≤ n)
    (h : ∀ j, m ≤ j → j < n → (e.run j).started r = none) :
    (e.run n).last? r = (e.run m).last? r := by
  induction n, hmn using Nat.le_induction with
  | base => rfl
  | succ n hmn ih =>
    rw [run_succ', last?_step_of_not_started (h n hmn (by omega))]
    exact ih fun j hj hjn => h j hj (by omega)

/-! ## Where calls come from -/

/-- What a task leaves on the agenda is new or was there. -/
theorem Beat.mem_of_mem_tail (h : e.Beat r) {t : Task} (ht : t ∈ e.step.agenda.tail) :
    t.isRoundOf r = false ∨ (∃ state skip rest, t = .round r state skip rest) ∨
      t ∈ e.agenda.tail := by
  cases h with
  | quiet hagenda hnews =>
    rw [hagenda] at ht
    rcases List.mem_append.1 (List.mem_of_mem_tail ht) with ht | ht
    · exact Or.inl (hnews t ht)
    · exact Or.inr (Or.inr ht)
  | start hstarted hagenda =>
    rw [hagenda] at ht
    exact Or.inr (Or.inr ht)
  | @call state skip i rest base ha hagenda =>
    rw [hagenda] at ht
    rcases List.mem_cons.1 ht with rfl | ht
    · exact Or.inr (Or.inl ⟨_, _, _, rfl⟩)
    · exact Or.inr (Or.inr (by simpa [ha] using ht))
  | attach hagenda hmore =>
    rw [hagenda] at ht
    rcases List.mem_append.1 ht with ht | ht
    · exact Or.inl (hmore t ht)
    · exact Or.inr (Or.inr ht)

theorem not_isRoundOf_ofScript {steps : List Step} {t : Task} (ht : t ∈ Task.ofScript steps) :
    t.isRoundOf r = false :=
  Task.isRoundOf_of_isRound (Task.isRound_ofScript steps t ht) r

/-- A call is done at once: no other task is in front of it. -/
theorem not_deliver_below {steps : List Step} (hscript : e.agenda = Task.ofScript steps) (n : Nat) :
    ∀ t ∈ (e.run n).agenda.tail, ∀ i state skip, t ≠ .deliver r i state skip := by
  induction n with
  | zero =>
    intro t ht i state skip
    rintro rfl
    rw [run, hscript] at ht
    have hround := not_isRoundOf_ofScript (r := r) (List.mem_of_mem_tail ht)
    simp [Task.isRoundOf] at hround
  | succ n ih =>
    intro t ht i state skip
    rintro rfl
    rw [run_succ'] at ht
    rcases (beat (e.run n) r).mem_of_mem_tail ht with hround | ⟨_, _, _, heq⟩ | ht
    · simp [Task.isRoundOf] at hround
    · simp at heq
    · exact ih _ ht i state skip rfl

theorem RoundRuns.mono {state skip : Bool} {base : List Task} {k : Nat}
    (h : e.RoundRuns r state skip base k n) (hn : base.length < (e.run (n + 1)).agenda.length) :
    e.RoundRuns r state skip base k (n + 1) := by
  refine ⟨Nat.lt_succ_of_lt h.before, h.started, h.below, fun j hkj hjn => ?_⟩
  rcases Nat.lt_or_ge n j with hj | hj
  · obtain rfl : j = n + 1 := by omega
    exact hn
  · exact h.above j hkj hj

/-- Every round on the agenda was started by a task, and runs since. Its first callback is pending
only at its start, when it is on top. -/
def RoundsStarted (e : Engine) (r : QueryId) (n : Nat) : Prop :=
  ∀ state skip pending base, .round r state skip pending :: base <:+ (e.run n).agenda →
    ∃ k, e.RoundRuns r state skip base k n ∧
      pending <:+ List.range ((e.run k).callbacks r).length ∧
      (0 ∈ pending → n = k + 1 ∧ (e.run n).agenda = .round r state skip pending :: base)

/-- A list that ends with `x` and what follows, where `x` is not among the first elements. -/
theorem suffix_of_notMem {α : Type} {x : α} {base news old : List α}
    (h : x :: base <:+ news ++ old) (hx : x ∉ news) : x :: base <:+ old := by
  induction news with
  | nil => exact h
  | cons y ys ih =>
    obtain ⟨hy, hys⟩ : x ≠ y ∧ x ∉ ys := by simpa using hx
    rcases List.suffix_cons_iff.1 h with heq | h
    · exact absurd (List.cons.inj heq).1 hy
    · exact ih h hys

/-- Zero is the first of a range, so it is not behind another element. -/
theorem zero_notMem_of_suffix_range {j m : Nat} {rest : List Nat} (h : j :: rest <:+ List.range m) :
    0 ∉ rest := by
  intro hmem
  have hpairwise := (List.pairwise_lt_range (n := m)).sublist h.sublist
  exact Nat.not_lt_zero j ((List.pairwise_cons.1 hpairwise).1 0 hmem)

/-- In every run of a script the rounds on the agenda were started by a task. One below a task is the
same as before the task, and it is not on top. -/
theorem roundsStarted {steps : List Step} (hscript : e.agenda = Task.ofScript steps) (n : Nat) :
    e.RoundsStarted r n := by
  induction n with
  | zero =>
    intro state skip pending base hsuffix
    rw [run, hscript] at hsuffix
    have hround := not_isRoundOf_ofScript (r := r) (hsuffix.subset List.mem_cons_self)
    simp [Task.isRoundOf] at hround
  | succ n ih =>
    intro state skip pending base hsuffix
    have habove : base.length < (e.run (n + 1)).agenda.length := by
      have := hsuffix.length_le
      rw [List.length_cons] at this
      omega
    have hbelow : .round r state skip pending :: base <:+ (e.run n).agenda.tail →
        ∃ k, e.RoundRuns r state skip base k (n + 1) ∧
          pending <:+ List.range ((e.run k).callbacks r).length ∧
          (0 ∈ pending → n + 1 = k + 1 ∧
            (e.run (n + 1)).agenda = .round r state skip pending :: base) := by
      intro hold
      obtain ⟨k, hruns, hpending, htop⟩ :=
        ih state skip pending base (hold.trans (List.tail_suffix _))
      refine ⟨k, hruns.mono habove, hpending, fun hzero => ?_⟩
      obtain ⟨-, hagenda⟩ := htop hzero
      have hlength := hold.length_le
      rw [hagenda, List.tail_cons, List.length_cons] at hlength
      omega
    have hagenda' : (e.run (n + 1)).agenda = (e.run n).step.agenda := by rw [run_succ']
    rw [hagenda'] at hsuffix
    cases beat (e.run n) r with
    | quiet hagenda hnews =>
      rw [hagenda] at hsuffix
      refine hbelow (suffix_of_notMem hsuffix fun hmem => ?_)
      simpa [Task.isRoundOf] using hnews _ hmem
    | start hstarted hagenda =>
      rw [hagenda] at hsuffix
      rcases List.suffix_cons_iff.1 hsuffix with heq | hold
      · obtain ⟨hround, rfl⟩ := List.cons.inj heq
        obtain ⟨-, rfl, rfl, rfl⟩ := Task.round.inj hround
        refine ⟨n, ⟨Nat.lt_succ_self n, hstarted, rfl, fun j hj hjn => ?_⟩, List.suffix_rfl,
          fun _ => ⟨rfl, hagenda'.trans hagenda⟩⟩
        obtain rfl : j = n + 1 := by omega
        exact habove
      · exact hbelow hold
    | @call state' skip' i rest base' ha hagenda =>
      have htail : (e.run n).agenda.tail = base' := by rw [ha, List.tail_cons]
      rw [hagenda] at hsuffix
      rcases List.suffix_cons_iff.1 hsuffix with heq | hsuffix
      · simp at heq
      rcases List.suffix_cons_iff.1 hsuffix with heq | hold
      · obtain ⟨hround, rfl⟩ := List.cons.inj heq
        obtain ⟨-, rfl, rfl, rfl⟩ := Task.round.inj hround
        obtain ⟨k, hruns, hpending, -⟩ := ih state skip (i :: pending) base (ha ▸ List.suffix_rfl)
        refine ⟨k, hruns.mono habove, (List.suffix_cons i pending).trans hpending, fun hzero => ?_⟩
        exact absurd hzero (zero_notMem_of_suffix_range hpending)
      · exact hbelow (htail ▸ hold)
    | attach hagenda hmore _ hfirst =>
      rw [hagenda, ← List.cons_append] at hsuffix
      refine hbelow (suffix_of_notMem hsuffix fun hmem => ?_)
      rcases List.mem_cons.1 hmem with heq | hmem
      · rcases hfirst with ⟨hfirst, -⟩ | ⟨hfirst, -⟩ <;> simp [hfirst] at heq
      · simpa [Task.isRoundOf] using hmore _ hmem

/-! ## Whom a callback waits for -/

/-- The last call of a callback, and since then no round has started. -/
structure IsTold (e : Engine) (r : QueryId) (i n t : Nat) (b : Bool) : Prop
    extends LastDelivery e r i n t b where
  quiet : ∀ j, t ≤ j → j < n → (e.run j).started r = none

/-- What every callback is, at any time: due, or the first of a rule that is about to be triggered,
or told the last state. -/
inductive IsServed (e : Engine) (r : QueryId) (i n : Nat) : Prop
  | due (t : Task) (ht : t ∈ (e.run n).agenda) (hdue : t.isDue r i = true)
  | rung (ts : List Task) (ha : (e.run n).agenda = .trigger r :: ts)
      (hlast : (e.run n).last? r = none)
  | told (t : Nat) (b : Bool) (h : e.IsTold r i n t b)

theorem IsTold.mono {t : Nat} {b : Bool} (h : e.IsTold r i n t b)
    (hstarted : (e.run n).started r = none) (hnow : (e.run n).delivers r i = none) :
    e.IsTold r i (n + 1) t b := by
  refine ⟨⟨Nat.lt_succ_of_lt h.before, h.state, fun j hj hjn => ?_⟩, fun j hj hjn => ?_⟩
  · rcases Nat.lt_succ_iff_lt_or_eq.1 hjn with hjn | rfl
    · exact h.last j hj hjn
    · exact hnow
  · rcases Nat.lt_succ_iff_lt_or_eq.1 hjn with hjn | rfl
    · exact h.quiet j hj hjn
    · exact hstarted

theorem isTold_of_delivers {b : Bool} (hstarted : (e.run n).started r = none)
    (hnow : (e.run n).delivers r i = some b) : e.IsTold r i (n + 1) n b := by
  refine ⟨⟨Nat.lt_succ_self n, hnow, fun j hj hjn => by omega⟩, fun j hj hjn => ?_⟩
  obtain rfl : j = n := by omega
  exact hstarted

/-- The first callback of a rule that is not paused starts a round. -/
theorem exists_started {ts : List Task} (ha : e.agenda = .trigger r :: ts)
    (hlast : e.last? r = none) (hroot : ∀ s, e.query? r = some s → s.parent = none)
    (hawake : e.isPaused r = false) :
    ∃ round, e.started r = some round := by
  have hr : e.taken.root r = r := root_of_parent hroot
  rw [started_trigger ha, if_pos ⟨hr, hawake, by simp [hlast]⟩]
  exact ⟨_, rfl⟩

/-- What was due and is the next task is a call, or a round with callbacks left. -/
theorem exists_delivers {t : Task} {ts : List Task} (ha : e.agenda = t :: ts)
    (hdue : t.isDue r i = true)
    (hround : ∀ state skip j rest, e.agenda.head? ≠ some (.round r state skip (j :: rest))) :
    ∃ b, e.delivers r i = some b := by
  cases t with
  | deliver q j state skip => exact ⟨state, by simpa [delivers, ha, Task.isDue] using hdue⟩
  | round q state skip pending =>
    obtain ⟨rfl, hi⟩ : q = r ∧ i ∈ pending := by simpa [Task.isDue] using hdue
    obtain ⟨j, rest, rfl⟩ := List.exists_cons_of_ne_nil (List.ne_nil_of_mem hi)
    exact absurd (by rw [ha]; rfl) (hround state skip j rest)
  | _ => simp [Task.isDue] at hdue

/-- A callback is due, or waits for the first round, or was told the last state. -/
def IsReached (e : Engine) (r : QueryId) (i n : Nat) : Prop :=
  (∃ t ∈ (e.run n).agenda, t.isDue r i = true) ∨ (e.run n).last? r = none ∨ ∃ t b, e.IsTold r i n t b

/-- A task that starts no round and calls nobody new reaches the callbacks that were reached. -/
theorem IsReached.succ (h : e.IsReached r i n) (hstarted : (e.run n).started r = none)
    (hstays : ∀ t ∈ (e.run n).agenda, t.isDue r i = true →
      (∃ t' ∈ (e.run n).step.agenda, t'.isDue r i = true) ∨ ∃ b, (e.run n).delivers r i = some b) :
    e.IsReached r i (n + 1) := by
  have hrun : e.run (n + 1) = (e.run n).step := run_succ' n e
  rcases h with ⟨t, ht, hdue⟩ | hlast | ⟨t, b, h⟩
  · rcases hstays t ht hdue with hdue' | ⟨b, hnow⟩
    · exact Or.inl (hrun ▸ hdue')
    · exact Or.inr (Or.inr ⟨n, b, isTold_of_delivers hstarted hnow⟩)
  · exact Or.inr (Or.inl (by rw [hrun, last?_step_of_not_started hstarted, hlast]))
  · cases hnow : (e.run n).delivers r i with
    | none => exact Or.inr (Or.inr ⟨t, b, h.mono hstarted hnow⟩)
    | some b' => exact Or.inr (Or.inr ⟨n, b', isTold_of_delivers hstarted hnow⟩)

/-- Every callback is reached, from when it was added. -/
theorem isReached (hnew : e.callbacks r = []) (hi : i < ((e.run n).callbacks r).length) :
    e.IsReached r i n := by
  induction n with
  | zero => simp [run, hnew] at hi
  | succ n ih =>
    have hrun : e.run (n + 1) = (e.run n).step := run_succ' n e
    rw [hrun] at hi
    cases beat (e.run n) r with
    | quiet hagenda hnews hcallbacks hstarted hhead =>
      rw [hcallbacks] at hi
      refine (ih hi).succ hstarted fun t ht hdue => ?_
      obtain ⟨t', ts, ha⟩ := List.exists_cons_of_ne_nil (List.ne_nil_of_mem ht)
      rcases List.mem_cons.1 (ha ▸ ht) with rfl | ht
      · exact Or.inr (exists_delivers ha hdue hhead)
      · refine Or.inl ⟨t, ?_, hdue⟩
        rw [hagenda, agenda_taken ha]
        exact List.mem_append_right _ ht
    | start hstarted hagenda hcallbacks =>
      rw [hcallbacks] at hi
      refine Or.inl ⟨_, by rw [hrun, hagenda]; exact List.mem_cons_self, ?_⟩
      simpa [Task.isDue] using hi
    | @call state skip j rest base ha hagenda hcallbacks =>
      rw [hcallbacks] at hi
      refine (ih hi).succ (started_of_not_trigger ha rfl) fun t ht hdue => ?_
      rw [hagenda]
      rcases List.mem_cons.1 (ha ▸ ht) with rfl | ht
      · have hi' : i = j ∨ i ∈ rest := by simpa [Task.isDue] using hdue
        rcases hi' with rfl | hi'
        · exact Or.inl ⟨_, List.mem_cons_self, by simp [Task.isDue]⟩
        · refine Or.inl ⟨_, List.mem_cons_of_mem _ List.mem_cons_self, ?_⟩
          simpa [Task.isDue] using hi'
      · exact Or.inl ⟨t, List.mem_cons_of_mem _ (List.mem_cons_of_mem _ ht), hdue⟩
    | @attach first more hagenda hmore hcallbacks hfirst hstarted hhead =>
      rw [hcallbacks] at hi
      rcases Nat.lt_succ_iff_lt_or_eq.1 hi with hi | rfl
      · refine (ih hi).succ hstarted fun t ht hdue => ?_
        obtain ⟨t', ts, ha⟩ := List.exists_cons_of_ne_nil (List.ne_nil_of_mem ht)
        rcases List.mem_cons.1 (ha ▸ ht) with rfl | ht
        · have hround := hhead t (by rw [ha]; rfl)
          cases t <;> simp [Task.isRound, Task.isDue] at hround hdue
        · refine Or.inl ⟨t, ?_, hdue⟩
          rw [hagenda, agenda_taken ha]
          exact List.mem_cons_of_mem _ (List.mem_append_right _ ht)
      · rcases hfirst with ⟨-, hlast⟩ | ⟨rfl, -⟩
        · exact Or.inr (Or.inl (by rw [hrun, last?_step_of_not_started hstarted, hlast]))
        · refine Or.inl ⟨_, by rw [hrun, hagenda]; exact List.mem_cons_self, ?_⟩
          simp [Task.isDue]

/-- A rule that was never paused has its first round as soon as it has a callback. With a callback
and no result there would be a trigger, and it would start the round. -/
theorem rung_of_last?_eq_none (hnew : e.callbacks r = [])
    (hroot : ∀ k ≤ n, ∀ s, (e.run k).query? r = some s → s.parent = none)
    (hawake : ∀ k < n, (e.run k).isPaused r = false) (hlast : (e.run n).last? r = none)
    (hi : 0 < ((e.run n).callbacks r).length) : ∃ ts, (e.run n).agenda = .trigger r :: ts := by
  induction n with
  | zero => simp [run, hnew] at hi
  | succ n ih =>
    have hrun : e.run (n + 1) = (e.run n).step := run_succ' n e
    rw [hrun] at hi hlast ⊢
    have hnone : (e.run n).started r = none → ¬ 0 < ((e.run n).callbacks r).length := by
      intro hstarted hold
      rw [last?_step_of_not_started hstarted] at hlast
      obtain ⟨ts, ha⟩ := ih (fun k hk => hroot k (by omega)) (fun k hk => hawake k (by omega))
        hlast hold
      obtain ⟨round, hround⟩ := exists_started ha hlast (hroot n (by omega)) (hawake n (by omega))
      simp [hstarted] at hround
    cases beat (e.run n) r with
    | quiet _ _ hcallbacks hstarted => exact absurd (hcallbacks ▸ hi) (hnone hstarted)
    | start hstarted _ hcallbacks =>
      obtain ⟨s, hs⟩ := exists_query? (hcallbacks ▸ hi)
      simp [last?_step hs, hstarted] at hlast
    | call ha _ hcallbacks =>
      exact absurd (hcallbacks ▸ hi) (hnone (started_of_not_trigger ha rfl))
    | attach hagenda _ _ hfirst hstarted =>
      rcases hfirst with ⟨rfl, -⟩ | ⟨-, hsome⟩
      · exact ⟨_, hagenda⟩
      · rw [last?_step_of_not_started hstarted] at hlast
        exact absurd hlast hsome

/-- Every callback is served, from when it was added. -/
theorem isServed (hnew : e.callbacks r = [])
    (hroot : ∀ k ≤ n, ∀ s, (e.run k).query? r = some s → s.parent = none)
    (hawake : ∀ k < n, (e.run k).isPaused r = false)
    (hi : i < ((e.run n).callbacks r).length) : e.IsServed r i n := by
  rcases isReached hnew hi with ⟨t, ht, hdue⟩ | hlast | ⟨t, b, h⟩
  · exact .due t ht hdue
  · obtain ⟨ts, ha⟩ := rung_of_last?_eq_none hnew hroot hawake hlast (by omega)
    exact .rung ts ha hlast
  · exact .told t b h

/-! ## The last state -/

/-- Task `t` calls the callback in a round that task `k` has started with the state `b`. -/
structure InRound (e : Engine) (r : QueryId) (i : Nat) (b : Bool) (k t : Nat) : Prop where
  listed : i < ((e.run k).callbacks r).length
  call : ∃ skip pending base, e.RoundRuns r b skip base k t ∧
    (e.run t).agenda = .deliver r i b skip :: .round r b skip pending :: base

/-- Task `k` adds the callback to the rule, and the next one calls it. A chain of operations has it
called with the result at this moment. -/
structure AddedBy (e : Engine) (r : QueryId) (i : Nat) (b : Bool) (k : Nat) : Prop where
  before : ((e.run k).callbacks r).length = i
  after : ((e.run (k + 1)).callbacks r).length = i + 1
  call : (e.run (k + 1)).delivers r i = some b
  state : ∀ f ops name, (e.run k).agenda.head? = some (.chain f ops name) →
    b = ((e.run k).taken.evaluate r).value

theorem delivers_eq_some {b : Bool} (h : e.delivers r i = some b) :
    ∃ skip ts, e.agenda = .deliver r i b skip :: ts := by
  unfold delivers at h
  split at h
  · next q j state skip ts ha =>
    split at h
    · next hqj =>
      obtain ⟨rfl, rfl⟩ := hqj
      exact ⟨skip, ts, Option.some.inj h ▸ ha⟩
    · simp at h
  · simp at h

/-- A call comes from a round or from adding the callback. In a round the first callback has its
turn right after the start. -/
theorem called_cases {steps : List Step} (hscript : e.agenda = Task.ofScript steps) {t : Nat}
    {b : Bool} (h : (e.run t).delivers r i = some b) :
    (∃ k, e.InRound r i b k t ∧ (i = 0 → t = k + 2)) ∨
    ∃ k, t = k + 1 ∧ e.AddedBy r i b k ∧ (e.run k).started r = none := by
  obtain ⟨skip, ts, ht⟩ := delivers_eq_some h
  obtain ⟨k, rfl⟩ : ∃ k, t = k + 1 := by
    refine Nat.exists_eq_succ_of_ne_zero ?_
    rintro rfl
    rw [run, hscript] at ht
    have hround := Task.isRound_ofScript steps (.deliver r i b skip) (ht ▸ List.mem_cons_self)
    simp [Task.isRound] at hround
  have hrun : e.run (k + 1) = (e.run k).step := run_succ' k e
  rw [hrun] at ht
  have hbelow := not_deliver_below (r := r) hscript k
  cases beat (e.run k) r with
  | quiet hagenda hnews =>
    have hmem : .deliver r i b skip ∈ _ ++ (e.run k).taken.agenda :=
      hagenda ▸ ht ▸ List.mem_cons_self
    rcases List.mem_append.1 hmem with hmem | hmem
    · simpa [Task.isRoundOf] using hnews _ hmem
    · exact absurd rfl (hbelow _ hmem i b skip)
  | start hstarted hagenda =>
    rw [ht] at hagenda
    simp at hagenda
  | @call state skip' j rest base ha hagenda =>
    rw [ht] at hagenda
    obtain ⟨hhead, rfl⟩ := List.cons.inj hagenda
    obtain ⟨-, rfl, rfl, rfl⟩ := Task.deliver.inj hhead
    have hsuffix : .round r b skip (i :: rest) :: base <:+ (e.run k).agenda := ha ▸ List.suffix_rfl
    obtain ⟨m, hruns, hpending, htop⟩ := roundsStarted hscript k b skip (i :: rest) base hsuffix
    have habove : base.length < (e.run (k + 1)).agenda.length := by
      rw [hrun, ht]
      simp only [List.length_cons]
      omega
    refine Or.inl ⟨m, ⟨List.mem_range.1 (hpending.subset List.mem_cons_self), skip, rest, base,
      hruns.mono habove, hrun ▸ ht⟩, ?_⟩
    rintro rfl
    rw [(htop List.mem_cons_self).1]
  | @attach first more hagenda hmore hcallbacks hfirst hstarted hhead =>
    rw [ht] at hagenda
    obtain ⟨rfl, -⟩ := List.cons.inj hagenda
    rcases hfirst with ⟨hfirst, -⟩ | ⟨hfirst, -⟩
    · simp at hfirst
    · obtain ⟨-, rfl, rfl, -⟩ := Task.deliver.inj hfirst
      exact Or.inr ⟨k, rfl, ⟨rfl, hrun ▸ hcallbacks, h, fun _ _ _ _ => rfl⟩, hstarted⟩

/-- The result is the state of a round if an even number of rounds has started since. -/
theorem InRound.last?_iff {b : Bool} {k t : Nat} (h : e.InRound r i b k t) :
    (e.run t).last? r = some b ↔ Even (rounds r (t - (k + 1)) (e.run (k + 1))).length := by
  obtain ⟨skip, pending, base, hruns, -⟩ := h.call
  obtain ⟨s, hs⟩ := exists_query? h.listed
  obtain ⟨hquery, -⟩ := step_of_started hs hruns.started
  rw [← run_succ'] at hquery
  have hlast : (e.run (k + 1)).last? r = some b := by rw [last?, queryAt_eq hquery]
  obtain ⟨m, rfl⟩ : ∃ m, t = k + 1 + m := ⟨t - (k + 1), by have := hruns.before; omega⟩
  rw [run_add, last?_run_iff_even hquery hlast, Nat.add_sub_cancel_left]

/-- Right after its start a round is on top, so no other has started inside it. -/
theorem InRound.rounds_first {b : Bool} {k t : Nat} (h : e.InRound r i b k t) :
    rounds r (k + 2 - (k + 1)) (e.run (k + 1)) = [] := by
  obtain ⟨s, hs⟩ := exists_query? h.listed
  obtain ⟨skip, pending, base, hruns, -⟩ := h.call
  obtain ⟨-, hagenda⟩ := step_of_started hs hruns.started
  rw [run_succ', show k + 2 - (k + 1) = 1 by omega, rounds, started_of_not_trigger hagenda rfl]
  rfl

/-- Between calls of a script, every callback of a rule that was never paused has been called. If
its last call was made by a round, then it was told the result that the rule has now exactly if an
even number of rounds of the rule has started inside that round before; the first callback always
was. If it was made when the callback was added, then the rule has started no round since, and the
callback was told its result exactly if it was told the one that the rule had at that moment. -/
theorem delivered_iff {steps : List Step} {s : Query} (hscript : e.agenda = Task.ofScript steps)
    (hnew : e.callbacks r = []) (hbetween : (e.run n).agenda <:+ Task.ofScript steps)
    (hs : (e.run n).query? r = some s) (hroot : s.parent = none)
    (hawake : ∀ k < n, (e.run k).isPaused r = false) (hi : i < s.callbacks.length) :
    ∃ t b, e.LastDelivery r i n t b ∧
      ((∃ k, e.InRound r i b k t ∧ (i = 0 → s.last = some b) ∧
          (s.last = some b ↔ Even (rounds r (t - (k + 1)) (e.run (k + 1))).length)) ∨
        ∃ k, t = k + 1 ∧ e.AddedBy r i b k ∧
          (∀ j, k ≤ j → j < n → (e.run j).started r = none) ∧
          (s.last = some b ↔ (e.run k).last? r = some b)) := by
  have hlisted : i < ((e.run n).callbacks r).length := by simpa [callbacks, hs] using hi
  have hlast : (e.run n).last? r = s.last := by rw [last?, queryAt_eq hs]
  obtain ⟨t, b, htold⟩ : ∃ t b, e.IsTold r i n t b := by
    cases isServed hnew (fun k hk => parent_run hs hroot hk) hawake hlisted with
    | due t ht hdue =>
      have hround := Task.isRound_ofScript steps t (hbetween.subset ht)
      cases t <;> simp [Task.isRound, Task.isDue] at hround hdue
    | rung ts ha =>
      have htrigger : .trigger r ∈ (e.run n).agenda := ha ▸ List.mem_cons_self
      obtain ⟨step, -, hmem⟩ := List.mem_flatMap.1 (hbetween.subset htrigger)
      simp at hmem
    | told t b h => exact ⟨t, b, h⟩
  have hsince : s.last = (e.run t).last? r :=
    hlast ▸ last?_run_of_not_started htold.before.le htold.quiet
  refine ⟨t, b, htold.toLastDelivery, ?_⟩
  rcases called_cases hscript htold.state with ⟨k, hround, hfirst⟩ | ⟨k, rfl, hadded, hstarted⟩
  · refine Or.inl ⟨k, hround, ?_, hsince ▸ hround.last?_iff⟩
    rintro rfl
    obtain rfl := hfirst rfl
    rw [hsince, hround.last?_iff, hround.rounds_first]
    exact Even.zero
  · refine Or.inr ⟨k, rfl, hadded, fun j hkj hjn => ?_, ?_⟩
    · rcases Nat.eq_or_lt_of_le hkj with rfl | hkj
      · exact hstarted
      · exact htold.quiet j hkj hjn
    · rw [hsince, run_succ', last?_step_of_not_started hstarted]

/-- A box that unticks itself, with a note that is shown while it is ticked. -/
def refusingRules : List Step := [
  .rule [.when (.value (.text "true")) (some "gift"),
    .attach .onlyHolding [.named "unsetChecked"] [.text "gift"],
    .attach .holding [.named "show"] [.text "note"]] none none]

theorem refusingRules_isPlain : ∀ s ∈ refusingRules, s.IsPlain Config.builtin.evaluations := by
  have htrue : (Config.builtin.evaluations.lookup (.text "true")).pattern ∈
      Evaluation.valuePatterns := by decide +kernel
  simp only [refusingRules, List.forall_mem_cons]
  refine ⟨.rule ?_, by simp⟩
  simp only [List.forall_mem_cons]
  exact ⟨.when htrue (by decide), .attach (by simpa using .named (by decide)),
    .attach (by simpa using .named (by decide)), by simp⟩

/-- An order with this rule, whose box is ticked. -/
def refusingOrder : Engine :=
  running .builtin
    (((Form.empty "order").add { id := "gift", kind := .checkbox, value := "yes" }).add
      { id := "note", kind := .text, value := "", visible := false }) false
    (refusingRules ++ [.write "gift" (.bool true) false])

/-- After the last task the rule is left with the result that the box is not ticked. -/
theorem refusingOrder_run : (refusingOrder.run 66).agenda = [] ∧
    (∀ k < 66, (refusingOrder.run k).isPaused 0 = false) ∧
    ∃ s, (refusingOrder.run 66).query? 0 = some s ∧ s.parent = none ∧ s.callbacks.length = 2 ∧
      s.last = some false := by
  have hrun : (refusingOrder.run 66).agenda.length = 0 ∧
      (∀ k < 66, (refusingOrder.run k).isPaused 0 = false) ∧
      ((refusingOrder.run 66).query? 0).any (fun s =>
        s.parent == none && s.callbacks.length == 2 && s.last == some false) = true := by
    decide +kernel
  obtain ⟨hsettled, hawake, hrule⟩ := hrun
  obtain ⟨s, hs, hcond⟩ := (Option.any_eq_true _ _).1 hrule
  simp only [Bool.and_eq_true, beq_iff_eq] at hcond
  exact ⟨List.length_eq_zero_iff.1 hsettled, hawake, s, hs, hcond.1.1, hcond.1.2, hcond.2⟩

/-- The second callback is told last that the box is ticked, when it no longer is. -/
theorem lastDelivery_refusingOrder : refusingOrder.LastDelivery 0 1 66 48 true := by
  have hrun : (refusingOrder.run 48).delivers 0 1 = some true ∧
      ∀ j < 66, 48 < j → (refusingOrder.run j).delivers 0 1 = none := by
    decide +kernel
  exact ⟨by omega, hrun.1, fun j hj hjn => hrun.2 j hjn hj⟩

/-- Ticking the box unticks it in a round inside the round. The first callback has been told the
result that the rule is left with, and the second has not. -/
theorem delivered_iff_refusingOrder : ∃ s, (refusingOrder.run 66).query? 0 = some s ∧
    s.last = some false ∧ (∃ t, refusingOrder.LastDelivery 0 0 66 t false) ∧
    ∃ k t, refusingOrder.LastDelivery 0 1 66 t true ∧ refusingOrder.InRound 0 1 true k t ∧
      ¬ Even (rounds 0 (t - (k + 1)) (refusingOrder.run (k + 1))).length := by
  obtain ⟨hsettled, hawake, s, hs, hroot, hlength, hlast⟩ := refusingOrder_run
  have hrun : ((refusingOrder.run 22).started 0).isSome = true ∧
      ∀ k < 66, 22 < k → ((refusingOrder.run k).callbacks 0).length = 2 := by
    decide +kernel
  obtain ⟨hround, hlisted⟩ := hrun
  have hdelivered := fun i (hi : i < s.callbacks.length) =>
    delivered_iff (i := i) (e := refusingOrder) rfl rfl (hsettled ▸ List.nil_suffix) hs hroot hawake
      hi
  have hadded : ∀ i < 2, ∀ k < 66, ∀ b, refusingOrder.AddedBy 0 i b k →
      (∀ j, k ≤ j → j < 66 → (refusingOrder.run j).started 0 = none) → False := by
    intro i hi k hk b hadded hquiet
    rcases Nat.lt_or_ge 22 k with hlt | hge
    · have hbefore := hadded.before
      rw [hlisted k hk hlt] at hbefore
      omega
    · simp [hquiet 22 hge (by omega)] at hround
  refine ⟨s, hs, hlast, ?_, ?_⟩
  · obtain ⟨t, b, htold, ⟨k, -, hfirst, -⟩ | ⟨k, rfl, had, hquiet, -⟩⟩ := hdelivered 0 (by omega)
    · obtain rfl : false = b := Option.some.inj (hlast.symm.trans (hfirst rfl))
      exact ⟨t, htold⟩
    · exact (hadded 0 (by omega) k (by have := htold.before; omega) b had hquiet).elim
  · obtain ⟨t, b, htold, ⟨k, hin, -, heven⟩ | ⟨k, rfl, had, hquiet, -⟩⟩ := hdelivered 1 (by omega)
    · obtain ⟨-, rfl⟩ := htold.unique lastDelivery_refusingOrder
      refine ⟨k, t, htold, hin, fun h => ?_⟩
      have htrue := heven.2 h
      simp [hlast] at htrue
    · exact (hadded 1 (by omega) k (by have := htold.before; omega) b had hquiet).elim

/-- Rules that are complete before anything is written, and use nothing but built-in conditions and
actions, can leave a callback with a state that a round inside its own has superseded. -/
theorem superseded_state_told_last : ¬ ∀ (form : Form) (rules calls : List Step) (n : Nat)
    (r : QueryId) (i : Nat) (s : Query) (t : Nat) (b : Bool),
    (∀ step ∈ rules, step.IsPlain Config.builtin.evaluations ∧
      ∃ chain, step = .rule chain none none) →
    (∀ step ∈ calls, ∃ field v automatic, step = .write field v automatic) →
    ((running .builtin form false (rules ++ calls)).run n).agenda = [] →
    ((running .builtin form false (rules ++ calls)).run n).query? r = some s → s.parent = none →
    (∀ k < n, ((running .builtin form false (rules ++ calls)).run k).isPaused r = false) →
    i < s.callbacks.length →
    (running .builtin form false (rules ++ calls)).LastDelivery r i n t b → s.last = some b := by
  intro h
  obtain ⟨hsettled, hawake, s, hs, hroot, hlength, hlast⟩ := refusingOrder_run
  have htrue := h _ refusingRules [.write "gift" (.bool true) false] 66 0 1 s 48 true
    (fun step hstep => ⟨refusingRules_isPlain step hstep, _, List.mem_singleton.1 hstep⟩)
    (fun step hstep => ⟨_, _, _, List.mem_singleton.1 hstep⟩) hsettled hs hroot hawake (by omega)
    lastDelivery_refusingOrder
  simp [hlast] at htrue

end Engine

end FormRules
