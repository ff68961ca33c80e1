import FormRules.Proofs.Deliveries

/-!
# Callbacks that come late

A callback that is added to a query with a result does not wait for the next round: it is called at
once, alone, with what the query comes to at this moment. This is so while the query is paused as
well, and it leaves the last result alone. So if conditions have changed since the last round, the new
callback knows more than the others, and if they change back, no round tells it so.

`Engine.late_callbacks` says that this is all that can happen, for scripts whose callbacks leave
the query alone (`Engine.CallbacksSpare`): a round runs to its end with the state that it was
started with, and after a trigger every callback was told the last result, except for those that
were late and differed.
-/

namespace FormRules.Engine

/-! ## Rounds that are left alone -/

/-- Callbacks leave the query alone: while one of its rounds waits, the task in front of it triggers
no part of its tree, adds no callback to it, and neither pauses nor resumes it. -/
def CallbacksSpare (e : Engine) (r : QueryId) : Prop :=
  ∀ k, (∃ t ∈ (e.run k).agenda.tail, t.isRoundOf r = true) →
    (∀ q, (e.run k).agenda.head? = some (.trigger q) → (e.run k).taken.root q ≠ r) ∧
    ((e.run (k + 1)).callbacks r).length = ((e.run k).callbacks r).length ∧
    (e.run (k + 1)).isPaused r = (e.run k).isPaused r

variable {e : Engine} {r : QueryId} {i n : Nat}

/-- A task that triggers no part of the tree starts no round. -/
theorem started_of_head_ne
    (h : ∀ q, e.agenda.head? = some (.trigger q) → e.taken.root q ≠ r) : e.started r = none := by
  cases ha : e.agenda with
  | nil => simp [started, ha]
  | cons t ts =>
    cases ht : t.isTrigger with
    | false => exact started_of_not_trigger ha ht
    | true =>
      obtain ⟨q, rfl⟩ := eq_trigger ht
      rw [started_trigger ha, if_neg fun hcond => h q (by rw [ha]; rfl) hcond.1]

theorem RoundRuns.of_le {state skip : Bool} {base : List Task} {k j : Nat}
    (h : e.RoundRuns r state skip base k n) (hkj : k < j) (hjn : j ≤ n) :
    e.RoundRuns r state skip base k j :=
  ⟨hkj, h.started, h.below, fun m hkm hmj => h.above m hkm (by omega)⟩

/-- A round that is not over is on the agenda, on top of what was below its trigger. When it is on
top it calls its next callback, or would be over. -/
theorem RoundRuns.suffix {state skip : Bool} {base : List Task} {k : Nat}
    (h : e.RoundRuns r state skip base k n) {s : Query} (hs : (e.run k).query? r = some s) :
    ∃ pending, .round r state skip pending :: base <:+ (e.run n).agenda := by
  have hkn : k + 1 ≤ n := h.before
  induction n, hkn using Nat.le_induction with
  | base =>
    obtain ⟨-, hagenda⟩ := step_of_started hs h.started
    rw [h.below] at hagenda
    rw [run_succ', hagenda]
    exact ⟨_, List.suffix_refl _⟩
  | succ n hkn ih =>
    obtain ⟨pending, hsuffix⟩ := ih (h.of_le (by omega) (by omega))
    have habove := h.above (n + 1) (by omega) (Nat.le_refl _)
    rw [run_succ'] at habove ⊢
    rcases Nat.eq_or_lt_of_le hsuffix.length_le with hlength | hlt
    · have ha := (hsuffix.eq_of_length hlength).symm
      cases pending with
      | nil => simp [step, ha, taken, perform] at habove
      | cons i rest =>
        refine ⟨rest, ?_⟩
        rw [step_of_agenda ha]
        exact agenda_taken ha ▸ List.suffix_cons _ _
    · exact ⟨pending, suffix_step hsuffix hlt⟩

/-- What tasks inside a round leave alone. -/
theorem RoundRuns.spared (hspare : e.CallbacksSpare r) {state skip : Bool} {base : List Task}
    {k : Nat} (h : e.RoundRuns r state skip base k n) {s : Query}
    (hs : (e.run k).query? r = some s) : (e.run n).started r = none ∧
      ((e.run (n + 1)).callbacks r).length = ((e.run n).callbacks r).length ∧
      (e.run (n + 1)).isPaused r = (e.run n).isPaused r := by
  obtain ⟨pending, hsuffix⟩ := h.suffix hs
  cases ha : (e.run n).agenda with
  | nil => simp [ha] at hsuffix
  | cons t ts =>
    rw [ha] at hsuffix
    rcases List.suffix_cons_iff.1 hsuffix with heq | hbelow
    · obtain ⟨rfl, rfl⟩ := List.cons.inj heq
      refine ⟨started_of_not_trigger ha rfl, ?_⟩
      rw [run_succ', step_of_agenda ha]
      cases pending <;> exact ⟨rfl, rfl⟩
    · have hmem : .round r state skip pending ∈ (e.run n).agenda.tail := by
        rw [ha]
        exact hbelow.subset List.mem_cons_self
      obtain ⟨hhead, hkept⟩ := hspare n ⟨_, hmem, by simp [Task.isRoundOf]⟩
      exact ⟨started_of_head_ne hhead, hkept⟩

/-- No other round starts inside a round. -/
theorem RoundRuns.last?_eq (hspare : e.CallbacksSpare r) {state skip : Bool} {base : List Task}
    {k : Nat} (h : e.RoundRuns r state skip base k n) {s : Query}
    (hs : (e.run k).query? r = some s) : (e.run n).last? r = some state := by
  obtain ⟨hquery, -⟩ := step_of_started hs h.started
  rw [← run_succ'] at hquery
  have hsame : (e.run n).last? r = (e.run (k + 1)).last? r :=
    last?_run_of_not_started h.before fun j hkj hjn =>
      ((h.of_le hkj hjn.le).spared hspare hs).1
  rw [hsame, last?, queryAt_eq hquery]

/-- A query that was awake when the round started is awake all through it. -/
theorem RoundRuns.awake (hspare : e.CallbacksSpare r) {state skip : Bool} {base : List Task}
    {k : Nat} (h : e.RoundRuns r state skip base k n) {s : Query}
    (hs : (e.run k).query? r = some s) : (e.run n).isPaused r = false := by
  have hkn : k + 1 ≤ n := h.before
  induction n, hkn using Nat.le_induction with
  | base =>
    obtain ⟨hquery, -⟩ := step_of_started hs h.started
    have hawake : (e.run k).isPaused r = false := by
      by_contra hpaused
      have hno := started_of_isPaused (Bool.not_eq_false _ ▸ hpaused)
      simp [h.started] at hno
    rw [run_succ', isPaused, hquery]
    rw [isPaused, hs] at hawake
    exact hawake
  | succ n hkn ih =>
    have hn := h.of_le (show k < n by omega) (Nat.le_succ n)
    rw [(hn.spared hspare hs).2.2]
    exact ih hn

theorem InRound.last?_eq (hspare : e.CallbacksSpare r) {b : Bool} {k t : Nat}
    (h : e.InRound r i b k t) : (e.run t).last? r = some b := by
  obtain ⟨s, hs⟩ := exists_query? h.listed
  obtain ⟨skip, pending, base, hruns, -⟩ := h.call
  exact hruns.last?_eq hspare hs

theorem InRound.awake (hspare : e.CallbacksSpare r) {b : Bool} {k t : Nat}
    (h : e.InRound r i b k t) : (e.run t).isPaused r = false := by
  obtain ⟨s, hs⟩ := exists_query? h.listed
  obtain ⟨skip, pending, base, hruns, -⟩ := h.call
  exact hruns.awake hspare hs

/-! ## Callbacks that are added -/

/-- A callback that is added to a query with a result is called by the next task, with what the
query comes to. -/
theorem addedBy_of_length_ne
    (hadded : ((e.run n).callbacks r).length ≠ ((e.run (n + 1)).callbacks r).length)
    (hlast : (e.run n).last? r ≠ none) :
    e.AddedBy r ((e.run n).callbacks r).length ((e.run n).taken.evaluate r).value n := by
  have hrun : e.run (n + 1) = (e.run n).step := run_succ' n e
  cases beat (e.run n) r with
  | quiet _ _ hcallbacks => exact absurd (hrun ▸ hcallbacks.symm) hadded
  | start _ _ hcallbacks => exact absurd (hrun ▸ hcallbacks.symm) hadded
  | call _ _ hcallbacks => exact absurd (hrun ▸ hcallbacks.symm) hadded
  | attach hagenda _ hcallbacks hfirst =>
    rcases hfirst with ⟨-, hnone⟩ | ⟨rfl, -⟩
    · exact absurd hnone hlast
    · refine ⟨rfl, by rw [hrun, hcallbacks], ?_, fun _ _ _ _ => rfl⟩
      simp [delivers, hrun, hagenda]

/-- Who is called when added is called with what the query comes to. Without a result the callback
would be the first, and have the query triggered. -/
theorem AddedBy.eq_evaluate {b : Bool} {k : Nat} (h : e.AddedBy r i b k) :
    b = ((e.run k).taken.evaluate r).value := by
  have hne : ((e.run k).callbacks r).length ≠ ((e.run (k + 1)).callbacks r).length := by
    rw [h.before, h.after]
    omega
  have hlast : (e.run k).last? r ≠ none := by
    intro hnone
    obtain ⟨skip, ts, ha⟩ := delivers_eq_some h.call
    rw [run_succ'] at ha hne
    cases beat (e.run k) r with
    | quiet _ _ hcallbacks => exact hne hcallbacks.symm
    | start _ _ hcallbacks => exact hne hcallbacks.symm
    | call _ _ hcallbacks => exact hne hcallbacks.symm
    | attach hagenda _ _ hfirst =>
      rcases hfirst with ⟨rfl, -⟩ | ⟨-, hsome⟩
      · simp [ha] at hagenda
      · exact hsome hnone
  have hcall := (addedBy_of_length_ne hne hlast).call
  rw [h.before, h.call] at hcall
  exact Option.some.inj hcall

/-- Task `j` adds the callback when the query comes to something else than its last result, and no
round has started since. -/
structure AddedLate (e : Engine) (r : QueryId) (i : Nat) (b : Bool) (j n : Nat) : Prop
    extends AddedBy e r i b j where
  result : b = ((e.run j).taken.evaluate r).value
  differs : (e.run j).last? r = some !b
  quiet : ∀ m, j ≤ m → m < n → (e.run m).started r = none

/-- Where nobody is due, every callback was told the last result, or was late. -/
theorem exists_lastDelivery {steps : List Step} (hscript : e.agenda = Task.ofScript steps)
    (hnew : e.callbacks r = []) (hspare : e.CallbacksSpare r) {c : Bool}
    (hlast : (e.run n).last? r = some c)
    (hidle : ∀ t ∈ (e.run n).agenda, t.isDue r i = false)
    (hi : i < ((e.run n).callbacks r).length) :
    ∃ t b, e.LastDelivery r i n t b ∧
      ((e.run n).last? r = some b ∨ ∃ j, t = j + 1 ∧ e.AddedLate r i b j n) := by
  obtain ⟨t, b, htold⟩ : ∃ t b, e.IsTold r i n t b := by
    rcases isReached hnew hi with ⟨t, ht, hdue⟩ | hnone | htold
    · simp [hidle t ht] at hdue
    · simp [hlast] at hnone
    · exact htold
  have hsince : (e.run n).last? r = (e.run t).last? r :=
    last?_run_of_not_started htold.before.le htold.quiet
  refine ⟨t, b, htold.toLastDelivery, ?_⟩
  rcases called_cases hscript htold.state with ⟨k, hround, -⟩ | ⟨j, rfl, hadded, hstarted⟩
  · exact Or.inl (hsince.trans (hround.last?_eq hspare))
  · rw [run_succ', last?_step_of_not_started hstarted] at hsince
    by_cases hb : (e.run j).last? r = some b
    · exact Or.inl (hsince.trans hb)
    · refine Or.inr ⟨j, rfl, hadded, hadded.eq_evaluate, ?_, fun m hjm hmn => ?_⟩
      · rw [← hsince, hlast] at hb ⊢
        cases b <;> cases c <;> simp at hb ⊢
      · rcases Nat.eq_or_lt_of_le hjm with rfl | hjm
        · exact hstarted
        · exact htold.quiet m hjm hmn

/-! ## Triggers -/

/-- Task `k` triggers the tree of `r`, which is not paused, and what follows from it is over after
`n` tasks, and not before. -/
structure Triggered (e : Engine) (r : QueryId) (k n : Nat) : Prop where
  head : ∃ q, (e.run k).agenda.head? = some (.trigger q) ∧ (e.run k).taken.root q = r
  awake : (e.run k).isPaused r = false
  before : k < n
  ended : (e.run n).agenda = (e.run k).taken.agenda
  above : ∀ j, k < j → j < n → (e.run k).taken.agenda.length < (e.run j).agenda.length

/-- After a trigger, the last result is what the query came to then. -/
theorem Triggered.last?_eq (hspare : e.CallbacksSpare r) {k : Nat} (h : e.Triggered r k n)
    {s : Query} (hs : (e.run k).query? r = some s) :
    (e.run n).last? r = some ((e.run k).taken.evaluate r).value := by
  obtain ⟨q, hhead, hroot⟩ := h.head
  obtain ⟨ts, ha⟩ := exists_agenda hhead
  have hstarted := started_trigger (r := r) ha
  by_cases hlast : (e.run k).last? r = some ((e.run k).taken.evaluate r).value
  · rw [if_neg fun hcond => hcond.2.2 hlast] at hstarted
    have hn : n = k + 1 := by
      by_contra hne
      have habove := h.above (k + 1) (by omega) (by have := h.before; omega)
      rcases step_trigger_cases ha with ⟨-, -, hagenda⟩ | ⟨-, hdiffers, -⟩
      · rw [run_succ', hagenda] at habove
        exact Nat.lt_irrefl _ habove
      · exact hdiffers (hroot ▸ hlast)
    rw [hn, run_succ', last?_step_of_not_started hstarted, hlast]
  · rw [if_pos ⟨hroot, h.awake, hlast⟩] at hstarted
    have hruns : ∀ j, k < j → j < n → e.RoundRuns r ((e.run k).taken.evaluate r).value
        ((e.run k).last? r).isNone (e.run k).taken.agenda k j := fun j hkj hjn =>
      ⟨hkj, hstarted, rfl, fun m hkm hmj => h.above m hkm (by omega)⟩
    obtain ⟨hquery, -⟩ := step_of_started hs hstarted
    have hsame : (e.run n).last? r = (e.run (k + 1)).last? r :=
      last?_run_of_not_started h.before fun j hkj hjn =>
        ((hruns j hkj hjn).spared hspare hs).1
    rw [hsame, run_succ', last?, queryAt_eq hquery]

/-- Nobody is due below a trigger, nor after it. -/
theorem Triggered.isDue_eq_false (hspare : e.CallbacksSpare r) {k : Nat} (h : e.Triggered r k n) :
    ∀ t ∈ (e.run n).agenda, t.isDue r i = false := by
  intro t ht
  rw [h.ended] at ht
  obtain ⟨q, hhead, hroot⟩ := h.head
  by_contra hdue
  have hround : t.isRoundOf r = true := by
    cases t <;> simp_all [Task.isDue, Task.isRoundOf]
  exact (hspare k ⟨t, ht, hround⟩).1 q hhead hroot

/-- Let the callbacks of a query leave it alone. While it is paused, a callback is called only when
it is added, with what the query comes to. A callback that is added to a query with a result is
called at once, and no other. After every trigger of a query that is not paused, its last result is
what it came to then, and every callback was told this last, unless it was added since the
last round when the query came to the opposite; then it was told that. -/
theorem late_callbacks {steps : List Step} (hscript : e.agenda = Task.ofScript steps)
    (hnew : e.callbacks r = []) (hspare : e.CallbacksSpare r) :
    (∀ t i b, (e.run t).delivers r i = some b → (e.run t).isPaused r = true →
      ∃ k, t = k + 1 ∧ e.AddedBy r i b k ∧ b = ((e.run k).taken.evaluate r).value) ∧
    (∀ k, ((e.run k).callbacks r).length ≠ ((e.run (k + 1)).callbacks r).length →
      (e.run k).last? r ≠ none →
      e.AddedBy r ((e.run k).callbacks r).length ((e.run k).taken.evaluate r).value k) ∧
    ∀ k n s, e.Triggered r k n → (e.run k).query? r = some s →
      (e.run n).last? r = some ((e.run k).taken.evaluate r).value ∧
      ∀ i < ((e.run n).callbacks r).length, ∃ t b, e.LastDelivery r i n t b ∧
        ((e.run n).last? r = some b ∨ ∃ j, t = j + 1 ∧ e.AddedLate r i b j n) := by
  refine ⟨fun t i b hcall hpaused => ?_, fun k hadded hlast => ?_, fun k n s htrigger hs => ?_⟩
  · rcases called_cases hscript hcall with ⟨k, hround, -⟩ | ⟨k, rfl, hadded, -⟩
    · simp [hround.awake hspare] at hpaused
    · exact ⟨k, rfl, hadded, hadded.eq_evaluate⟩
  · exact addedBy_of_length_ne hadded hlast
  · have hlast := htrigger.last?_eq hspare hs
    exact ⟨hlast, fun i hi => exists_lastDelivery hscript hnew hspare hlast
      (htrigger.isDue_eq_false hspare) hi⟩

/-! ## A callback that is told something else -/

theorem callbacksSpare_of_settled (hsettled : (e.run n).agenda = [])
    (h : ∀ k < n, (e.run k).agenda.tail.any (Task.isRoundOf r) = true →
      (e.run k).agenda.head?.any Task.isTrigger = false ∧
      ((e.run (k + 1)).callbacks r).length = ((e.run k).callbacks r).length ∧
      (e.run (k + 1)).isPaused r = (e.run k).isPaused r) : e.CallbacksSpare r := by
  rintro k ⟨t, ht, hround⟩
  rcases Nat.lt_or_ge k n with hk | hk
  · obtain ⟨hhead, hkept⟩ := h k hk (List.any_eq_true.2 ⟨t, ht, hround⟩)
    refine ⟨fun q hq => ?_, hkept⟩
    rw [hq] at hhead
    simp [Task.isTrigger] at hhead
  · obtain ⟨m, rfl⟩ : ∃ m, k = n + m := ⟨k - n, by omega⟩
    rw [run_add, run_of_settled hsettled, hsettled] at ht
    simp at ht

/-- A query on a flag. Its second callback is added while it is paused and the flag is not what it
was in the last round, to which it goes back before the query is triggered again. -/
def flickeringSteps : List Step := [
  .query "q" .new, .query "q" (.condition (.flag "a" false false)), .setFlag "a" true,
  .query "q" (.callback "first" []), .query "q" .pause, .setFlag "a" false,
  .query "q" (.callback "second" []), .query "q" .resume, .setFlag "a" true,
  .query "q" .trigger]

/-- A session that makes this query. -/
def flickering : Engine where
  sessions := [{}]
  agenda := Task.ofScript flickeringSteps

theorem callbacksSpare_flickering : flickering.CallbacksSpare 0 :=
  callbacksSpare_of_settled (n := 46) (List.length_eq_zero_iff.1 (by decide +kernel))
    (by decide +kernel)

theorem triggered_flickering : flickering.Triggered 0 42 43 := by
  have hrun : (flickering.run 42).agenda.head?.any (fun t => t.isTrigger && t.queries == [0]) ∧
      (flickering.run 42).taken.root 0 = 0 ∧ (flickering.run 42).isPaused 0 = false ∧
      (flickering.run 42).last? 0 = some ((flickering.run 42).taken.evaluate 0).value := by
    decide +kernel
  obtain ⟨hhead, hroot, hawake, hlast⟩ := hrun
  obtain ⟨t, ht, hcond⟩ := (Option.any_eq_true _ _).1 hhead
  obtain ⟨htrigger, hqueries⟩ := Bool.and_eq_true_iff.1 hcond
  obtain ⟨q, rfl⟩ := eq_trigger htrigger
  obtain rfl : q = 0 := by simpa [Task.queries] using hqueries
  obtain ⟨ts, ha⟩ := exists_agenda ht
  refine ⟨⟨0, ht, hroot⟩, hawake, by omega, ?_, fun j hj hjn => by omega⟩
  rw [run_succ']
  rcases step_trigger_cases ha with ⟨-, -, hagenda⟩ | ⟨-, hdiffers, -⟩
  · exact hagenda
  · exact absurd (by rw [hroot]; exact hlast) hdiffers

/-- The second callback is called while the query is paused, and for the last time. -/
theorem lastDelivery_flickering : (flickering.run 28).isPaused 0 = true ∧
    (flickering.run 43).last? 0 = some true ∧ flickering.LastDelivery 0 1 43 28 false := by
  have hrun : (flickering.run 28).isPaused 0 = true ∧ (flickering.run 43).last? 0 = some true ∧
      (flickering.run 28).delivers 0 1 = some false ∧
      ∀ j < 43, 28 < j → (flickering.run j).delivers 0 1 = none := by
    decide +kernel
  obtain ⟨hpaused, hlast, hcall, hno⟩ := hrun
  exact ⟨hpaused, hlast, by omega, hcall, fun j hj hjn => hno j hjn hj⟩

/-- After the last trigger the result is what it was in the round, and the second callback was added
since, on the opposite. -/
theorem late_callbacks_flickering : flickering.CallbacksSpare 0 ∧ flickering.Triggered 0 42 43 ∧
    (flickering.run 28).isPaused 0 = true ∧ flickering.AddedBy 0 1 false 27 ∧
    (flickering.run 43).last? 0 = some ((flickering.run 42).taken.evaluate 0).value ∧
    flickering.LastDelivery 0 1 43 28 false ∧ flickering.AddedLate 0 1 false 27 43 := by
  obtain ⟨hpaused, hlast, htold⟩ := lastDelivery_flickering
  have hscript : flickering.agenda = Task.ofScript flickeringSteps := rfl
  obtain ⟨hcalls, -, htriggers⟩ := late_callbacks (r := 0) hscript rfl callbacksSpare_flickering
  obtain ⟨k, hk, hadded, -⟩ := hcalls 28 1 false htold.state hpaused
  obtain rfl : k = 27 := by omega
  have hrule : ((flickering.run 42).query? 0).isSome ∧
      1 < ((flickering.run 43).callbacks 0).length := by decide +kernel
  obtain ⟨s, hs⟩ := Option.isSome_iff_exists.1 hrule.1
  obtain ⟨hresult, htriggered⟩ := htriggers 42 43 s triggered_flickering hs
  obtain ⟨t, b, htold', hlate⟩ := htriggered 1 hrule.2
  obtain ⟨rfl, rfl⟩ := htold'.unique htold
  refine ⟨callbacksSpare_flickering, triggered_flickering, hpaused, hadded, hresult, htold, ?_⟩
  rcases hlate with hsame | ⟨j, hj, hlate⟩
  · simp [hlast] at hsame
  · obtain rfl : j = 27 := by omega
    exact hlate

/-- Callbacks are called while the query is paused, and are not always told the last result. -/
theorem called_while_paused_and_not_told_last :
    (¬ ∀ (e : Engine) (steps : List Step) (r : QueryId), e.agenda = Task.ofScript steps →
      e.callbacks r = [] → e.CallbacksSpare r →
      ∀ t i b, (e.run t).delivers r i = some b → (e.run t).isPaused r = false) ∧
    ¬ ∀ (e : Engine) (steps : List Step) (r : QueryId), e.agenda = Task.ofScript steps →
      e.callbacks r = [] → e.CallbacksSpare r →
      ∀ k n i t b, e.Triggered r k n → e.LastDelivery r i n t b → (e.run n).last? r = some b := by
  obtain ⟨hpaused, hlast, htold⟩ := lastDelivery_flickering
  refine ⟨fun h => ?_, fun h => ?_⟩
  · have hawake := h flickering flickeringSteps 0 rfl rfl callbacksSpare_flickering 28 1 false
      htold.state
    simp [hpaused] at hawake
  · have hsame := h flickering flickeringSteps 0 rfl rfl callbacksSpare_flickering 42 43 1 28 false
      triggered_flickering htold
    simp [hlast] at hsame

end FormRules.Engine
