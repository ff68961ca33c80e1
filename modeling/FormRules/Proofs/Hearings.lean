import FormRules.Proofs.Subscriptions

/-!
# Telling of changes

A notification goes through the fields that changed, one after the other. When it is the turn of a
field, those who are subscribed to it at that moment are told, in the order of their subscriptions,
with the value that the field has at that moment. Who is told may subscribe, write or start actions:
notifications nest, and what a subscription hears of depends on when it came.

`Engine.turn?` is the turn that comes with the next task, with the notices that it has to give, and
`Engine.notice?` the notice that is given. `Engine.Progress` says how far a notification has come,
`Engine.TellsOfChanges` what every run does with the notifications of a host, and `tellsOfChanges`
that it does so from any engine, with any scripts and rules as listeners.
-/

namespace FormRules

/-- That a listener is told of a change of a field. -/
structure Notice where
  listener : Listener
  field : String
  value : Option Value
  automatic : Bool

/-- Whom a host tells of a change of a field, as it is now. -/
def Host.notices (host : Host) (f : Handle) (automatic : Bool) : List Notice :=
  (host.subscriptions.filter (·.covers f)).map fun s =>
    ⟨s.listener, ((host.form.field? f).map FieldState.id).getD "", host.form.value? f, automatic⟩

/-- The turn of a field: a notification of a host has come to it, with its flag. -/
structure Turn where
  host : HostId
  field : Handle
  automatic : Bool

/-- What a listener logs when it is told. -/
def Notice.events (x : Notice) : List Event :=
  match x.listener with
  | .query _ => []
  | .script label _ => [.change label x.field x.value x.automatic]

namespace Engine

/-! ## Turns and notices -/

/-- The turn that comes with the next task, if that is a notification on top of `depth` tasks, and
the notices that are due. -/
def turn? (e : Engine) (depth : Nat) : Option (Turn × List Notice) :=
  match e.agenda with
  | .notify h (f :: _) automatic :: rest =>
    if rest.length = depth then
      (e.host? h).map fun host => (⟨h, f, automatic⟩, host.notices f automatic)
    else none
  | _ => none

/-- The notice that the next task gives, if it is on top of `depth` tasks. -/
def notice? (e : Engine) (depth : Nat) : Option Notice :=
  match e.agenda with
  | .inform (l :: _) field v automatic :: rest =>
    if rest.length = depth then some ⟨l, field, v, automatic⟩ else none
  | _ => none

variable {e : Engine} {depth n k : Nat} {ts : List Task}

/-- At a different depth no turn comes. -/
theorem turn?_of_length_ne (h : e.agenda.length ≠ depth + 1) : e.turn? depth = none := by
  unfold turn?
  split
  · next ha => rw [if_neg fun heq => h (by rw [ha, List.length_cons, heq])]
  · rfl

/-- At a different depth no notice is given. -/
theorem notice?_of_length_ne (h : e.agenda.length ≠ depth + 1) : e.notice? depth = none := by
  unfold notice?
  split
  · next ha => rw [if_neg fun heq => h (by rw [ha, List.length_cons, heq])]
  · rfl

/-- While the agenda stays longer, nothing is gathered at a depth. -/
theorem gather_turn?_of_above (h : ∀ j < n, depth + 1 < (e.run j).agenda.length) :
    gather (·.turn? depth) n e = [] :=
  gather_eq_nil fun j hj => turn?_of_length_ne (h j hj).ne'

/-- While other work is on top no notice is given. -/
theorem gather_notice?_of_above (h : ∀ j < n, depth + 1 < (e.run j).agenda.length) :
    gather (·.notice? depth) n e = [] :=
  gather_eq_nil fun j hj => notice?_of_length_ne (h j hj).ne'

/-- A script that is told of a change has that in the log. -/
theorem log_step_inform {l : Listener} {ls : List Listener} {field : String} {v : Option Value}
    {automatic : Bool} (ha : e.agenda = .inform (l :: ls) field v automatic :: ts) :
    e.step.log = e.log ++ (Notice.mk l field v automatic).events.toArray := by
  rw [step_of_agenda ha]
  cases l with
  | query q => exact (Array.append_empty).symm
  | script label run => rfl

/-- After `m` tasks, and not before, just the tasks `below` are left. -/
structure Returns (e : Engine) (below : List Task) (m : Nat) : Prop where
  agenda : (e.run m).agenda = below
  above : ∀ j < m, below.length < (e.run j).agenda.length

/-- A run either gets down to the tasks at the bottom of its agenda, or stays above them. -/
theorem returns_or_stays {base : List Task} (hbase : base <:+ e.agenda) (k : Nat) :
    (∃ m i, k = m + i ∧ e.Returns base m) ∨ ∀ j ≤ k, base.length < (e.run j).agenda.length := by
  by_cases hreturn : ∃ j ≤ k, (e.run j).agenda.length ≤ base.length
  · obtain ⟨j, hj, hlength⟩ := hreturn
    obtain ⟨m, hm, hagenda, habove⟩ := exists_return hbase hlength
    exact Or.inl ⟨m, k - m, by omega, ⟨hagenda, habove⟩⟩
  · refine Or.inr fun j hj => Nat.lt_of_not_le fun hle => hreturn ⟨j, hj, hle⟩

/-- A task after which nothing is above is over at once. -/
theorem le_one_of_above (hstep : e.step.agenda = ts)
    (habove : ∀ j < k, ts.length < (e.run j).agenda.length) : k ≤ 1 := by
  by_contra hk
  have hlt := habove 1 (by omega)
  rw [run_one, hstep] at hlt
  exact Nat.lt_irrefl _ hlt

/-! ## How far a notification has come -/

/-- How far the notices `due` have been given, on top of the tasks `below`, after `k` tasks. -/
structure Informed (e : Engine) (due : List Notice) (below : List Task) (k : Nat) : Prop where
  notices : gather (·.notice? below.length) k e <+: due
  ends : (e.run k).agenda.length ≤ below.length →
    (e.run k).agenda = below ∧ gather (·.notice? below.length) k e = due

/-- At first nobody has been told. -/
theorem Informed.zero (due : List Notice) (habove : ts.length < e.agenda.length) :
    e.Informed due ts 0 :=
  ⟨List.nil_prefix, fun h => absurd h (Nat.not_le_of_lt habove)⟩

/-- The notices of a stretch of the run go before those of the rest of it. -/
theorem Informed.append {m i : Nat} {news due : List Notice}
    (hnews : gather (·.notice? ts.length) m e = news) (h : (e.run m).Informed due ts i) :
    e.Informed (news ++ due) ts (m + i) where
  notices := by
    rw [gather_add, hnews]
    exact (List.prefix_append_right_inj _).2 h.notices
  ends hend := by
    rw [run_add] at hend ⊢
    obtain ⟨hagenda, hall⟩ := h.ends hend
    exact ⟨hagenda, by rw [gather_add, hnews, hall]⟩

/-- While the first listener is at work, nobody else is told. -/
theorem gather_first_notice {l : Listener} {ls : List Listener} {field : String} {v : Option Value}
    {automatic : Bool} (ha : e.agenda = .inform (l :: ls) field v automatic :: ts)
    (habove : ∀ j < k, ts.length + 1 < (e.step.run j).agenda.length) :
    gather (·.notice? ts.length) (k + 1) e = [⟨l, field, v, automatic⟩] := by
  have hfirst : e.notice? ts.length = some ⟨l, field, v, automatic⟩ := by simp [notice?, ha]
  rw [gather, hfirst, gather_notice?_of_above habove]
  rfl

/-- The listeners of a turn are told one by one, each once the one before has come to its end. Those
behind wait while the first one is at work. -/
theorem informed {ls : List Listener} {field : String} {v : Option Value} {automatic : Bool}
    (ha : e.agenda = .inform ls field v automatic :: ts)
    (habove : ∀ j < k, ts.length < (e.run j).agenda.length) :
    e.Informed (ls.map fun l => ⟨l, field, v, automatic⟩) ts k := by
  induction ls generalizing e k with
  | nil =>
    have hstep : e.step.agenda = ts := by rw [step_of_agenda ha]; exact agenda_taken ha
    obtain rfl | rfl : k = 0 ∨ k = 1 := by have := le_one_of_above hstep habove; omega
    · exact .zero _ (by simp [ha])
    · have hnone : gather (·.notice? ts.length) 1 e = [] := by simp [gather, notice?, ha]
      exact ⟨hnone ▸ List.nil_prefix, fun _ => ⟨by rw [run_one, hstep], hnone⟩⟩
  | cons l ls ih =>
    cases k with
    | zero => exact .zero _ (by simp [ha])
    | succ k =>
      have hbase : .inform ls field v automatic :: ts <:+ e.step.agenda := by
        rw [agenda_step_inform ha]
        exact List.suffix_append _ _
      have habove' : ∀ j < k, ts.length < (e.step.run j).agenda.length :=
        fun j hj => by simpa [run_succ] using habove (j + 1) (by omega)
      rcases returns_or_stays hbase k with ⟨m, i, rfl, ⟨hreturn, hm⟩⟩ | hstay
      · have hrest := ih hreturn (k := i) fun j hj => by
          rw [← run_add]
          exact habove' (m + j) (by omega)
        rw [← run_succ] at hrest
        rw [Nat.add_right_comm]
        exact Informed.append (gather_first_notice ha hm) hrest
      · have hnews := gather_first_notice ha fun j hj => hstay j (Nat.le_of_lt hj)
        have hlong := hstay k le_rfl
        rw [← run_succ, List.length_cons] at hlong
        exact ⟨hnews ▸ by simp, fun hend => by omega⟩

/-- At the turn of a field, those are told who are subscribed to it now. -/
theorem informed_step {h : HostId} {host : Host} (hhost : e.host? h = some host) {f : Handle}
    {fs : List Handle} {automatic : Bool} (ha : e.agenda = .notify h (f :: fs) automatic :: ts)
    (habove : ∀ j < k, ts.length + 1 < (e.step.run j).agenda.length) :
    e.step.Informed (host.notices f automatic) (.notify h fs automatic :: ts) k := by
  have h := informed (agenda_step_notify ha hhost) habove
  rwa [List.map_map] at h

/-- How far a notification of the host `h`, that tells of the fields `changed` on top of the tasks
`below`, has come after `k` tasks. -/
structure Progress (e : Engine) (h : HostId) (changed : List Handle) (automatic : Bool)
    (below : List Task) (k : Nat) : Prop where
  /-- The turns are those of its fields, in their order and each with its flag. -/
  turns : (gather (·.turn? below.length) k e).map Prod.fst <+:
    changed.map fun f => ⟨h, f, automatic⟩
  /-- The notices that are given are those that are due, in their order. -/
  notices : gather (·.notice? (below.length + 1)) k e <+:
    (gather (·.turn? below.length) k e).flatMap Prod.snd
  /-- All of them are given before the next turn comes. -/
  waits : (e.run k).agenda.length = below.length + 1 →
    gather (·.notice? (below.length + 1)) k e = (gather (·.turn? below.length) k e).flatMap Prod.snd
  /-- In the end each field has had its turn, and all notices are given. -/
  ends : (e.run k).agenda.length ≤ below.length → (e.run k).agenda = below ∧
    (gather (·.turn? below.length) k e).map Prod.fst = changed.map (fun f => ⟨h, f, automatic⟩) ∧
    gather (·.notice? (below.length + 1)) k e = (gather (·.turn? below.length) k e).flatMap Prod.snd

/-- At first a notification has made no turn. -/
theorem Progress.zero (h : HostId) (changed : List Handle) (automatic : Bool)
    (habove : ts.length < e.agenda.length) : e.Progress h changed automatic ts 0 where
  turns := List.nil_prefix
  notices := List.nil_prefix
  waits _ := rfl
  ends h := absurd h (Nat.not_le_of_lt habove)

/-- The turn and the notices of the first field go before those of the other fields. -/
theorem Progress.cons {m i : Nat} {h : HostId} {f : Handle} {fs : List Handle} {automatic : Bool}
    {due : List Notice}
    (hturns : gather (·.turn? ts.length) m e = [(⟨h, f, automatic⟩, due)])
    (hnotices : gather (·.notice? (ts.length + 1)) m e = due)
    (hrest : (e.run m).Progress h fs automatic ts i) :
    e.Progress h (f :: fs) automatic ts (m + i) where
  turns := by
    rw [gather_add, hturns]
    exact List.cons_prefix_cons.2 ⟨rfl, hrest.turns⟩
  notices := by
    rw [gather_add, gather_add, hturns, hnotices]
    exact (List.prefix_append_right_inj _).2 hrest.notices
  waits hturn := by
    rw [run_add] at hturn
    rw [gather_add, gather_add, hturns, hnotices, hrest.waits hturn]
    rfl
  ends hend := by
    rw [run_add] at hend ⊢
    obtain ⟨hagenda, hfields, hall⟩ := hrest.ends hend
    refine ⟨hagenda, ?_, ?_⟩
    · rw [gather_add, hturns, List.map_append, hfields]
      rfl
    · rw [gather_add, gather_add, hturns, hnotices, hall]
      rfl

/-- While those who are due at the first turn are told, no other turn comes. -/
theorem gather_first_turn {h : HostId} {host : Host} (hhost : e.host? h = some host) {f : Handle}
    {fs : List Handle} {automatic : Bool} (ha : e.agenda = .notify h (f :: fs) automatic :: ts)
    (habove : ∀ j < k, ts.length + 1 < (e.step.run j).agenda.length) :
    gather (·.turn? ts.length) (k + 1) e = [(⟨h, f, automatic⟩, host.notices f automatic)] ∧
      gather (·.notice? (ts.length + 1)) (k + 1) e =
        gather (·.notice? (ts.length + 1)) k e.step := by
  have hturn : e.turn? ts.length = some (⟨h, f, automatic⟩, host.notices f automatic) := by
    simp [turn?, ha, hhost]
  have hquiet : e.notice? (ts.length + 1) = none := by simp [notice?, ha]
  refine ⟨?_, ?_⟩
  · rw [gather, hturn, gather_turn?_of_above habove]
    rfl
  · rw [gather, hquiet]
    rfl

/-- A notification goes on as long as the tasks below it wait, whatever is done on the way. Either
someone who is due at this turn is still at work, or all of them have been told and the next turn
comes. -/
theorem progress {h : HostId} {host : Host} (hhost : e.host? h = some host) {changed : List Handle}
    {automatic : Bool} (ha : e.agenda = .notify h changed automatic :: ts)
    (habove : ∀ j < k, ts.length < (e.run j).agenda.length) :
    e.Progress h changed automatic ts k := by
  induction changed generalizing e host k with
  | nil =>
    have hstep : e.step.agenda = ts := by rw [step_of_agenda ha]; exact agenda_taken ha
    obtain rfl | rfl : k = 0 ∨ k = 1 := by have := le_one_of_above hstep habove; omega
    · exact .zero _ _ _ (by simp [ha])
    · have hturns : gather (·.turn? ts.length) 1 e = [] := by simp [gather, turn?, ha]
      have hnotices : gather (·.notice? (ts.length + 1)) 1 e = [] := by simp [gather, notice?, ha]
      exact
        { turns := by simp [hturns]
          notices := by simp [hnotices]
          waits := fun _ => by simp [hturns, hnotices]
          ends := fun _ => ⟨by rw [run_one, hstep], by simp [hturns, hnotices]⟩ }
  | cons f fs ih =>
    cases k with
    | zero => exact .zero _ _ _ (by simp [ha])
    | succ k =>
      have hbase : .notify h fs automatic :: ts <:+ e.step.agenda :=
        agenda_step_notify ha hhost ▸ List.suffix_cons _ _
      have habove' : ∀ j < k, ts.length < (e.step.run j).agenda.length :=
        fun j hj => by simpa [run_succ] using habove (j + 1) (by omega)
      rcases returns_or_stays hbase k with ⟨m, i, rfl, ⟨hreturn, hm⟩⟩ | hstay
      · obtain ⟨hturns, hnotices⟩ := gather_first_turn hhost ha hm
        have hgiven := ((informed_step hhost ha hm).ends (by rw [hreturn])).2
        rw [List.length_cons, ← hnotices] at hgiven
        obtain ⟨t, ht, -⟩ := host?_run hhost (m + 1)
        rw [run_succ] at ht
        have hrest := ih ht hreturn (k := i) fun j hj => by
          rw [← run_add]
          exact habove' (m + j) (by omega)
        rw [← run_succ] at hrest
        rw [Nat.add_right_comm]
        exact .cons hturns hgiven hrest
      · have hbefore := fun j (hj : j < k) => hstay j hj.le
        obtain ⟨hturns, hnotices⟩ := gather_first_turn hhost ha hbefore
        have hgiven := (informed_step hhost ha hbefore).notices
        rw [List.length_cons, ← hnotices] at hgiven
        have hlong := hstay k le_rfl
        rw [← run_succ, List.length_cons] at hlong
        exact
          { turns := by simp [hturns]
            notices := by simpa [hturns] using hgiven
            waits := fun hturn => by omega
            ends := fun hend => by omega }

/-! ## Nested notifications -/

/-- What comes up while a task is under way is over when the task is. -/
theorem Returns.nested {base : List Task} {m : Nat} (h : e.Returns base m) {j : Nat} (hj : j < m)
    {t : Task} (ht : (e.run j).agenda = t :: ts) :
    ∃ i, j + i ≤ m ∧ (e.run j).Returns ts i := by
  have hlong := h.above j hj
  rw [ht, List.length_cons] at hlong
  have hback : ((e.run j).run (m - j)).agenda.length ≤ ts.length := by
    rw [← run_add, Nat.add_sub_cancel' hj.le, h.agenda]
    omega
  obtain ⟨i, hi, hagenda, habove⟩ := exists_return (ht ▸ List.suffix_cons t ts) hback
  exact ⟨i, by omega, hagenda, habove⟩

/-- The next listener has its turn once the one before has come to its end. -/
theorem exists_returns_inform {l : Listener} {ls : List Listener} {field : String}
    {v : Option Value} {automatic : Bool}
    (ha : e.agenda = .inform (l :: ls) field v automatic :: ts)
    (hend : (e.step.run k).agenda.length ≤ ts.length + 1) :
    ∃ m ≤ k, e.step.Returns (.inform ls field v automatic :: ts) m := by
  have hbase : .inform ls field v automatic :: ts <:+ e.step.agenda := by
    rw [agenda_step_inform ha]
    exact List.suffix_append _ _
  obtain ⟨m, hm, hagenda, habove⟩ := exists_return hbase hend
  exact ⟨m, hm, hagenda, habove⟩

/-! ## Telling of changes -/

/-- The notification that is the next task after `j` tasks is what is left of an earlier one: the
field before those left, `g`, has had its turn, and those who were due have come to their end. -/
def Resumes (e : Engine) (h : HostId) (left : List Handle) (automatic : Bool) (below : List Task)
    (j : Nat) : Prop :=
  ∃ m < j, ∃ g, (e.run m).agenda = .notify h (g :: left) automatic :: below ∧
    (e.run (m + 1)).Returns (.notify h left automatic :: below) (j - (m + 1))

/-- After `j` tasks a notification of the fields `changed` is made: it is the next task, and not
what is left of an earlier one. -/
def Notifies (e : Engine) (h : HostId) (changed : List Handle) (automatic : Bool) (j : Nat) : Prop :=
  ∃ below, (e.run j).agenda = .notify h changed automatic :: below ∧
    ¬e.Resumes h changed automatic below j

/-- Behind each notification that is under way there is one that was made. -/
theorem exists_notifies {h : HostId} {f : Handle} {fs : List Handle} {automatic : Bool} {j : Nat}
    (ha : (e.run j).agenda = .notify h (f :: fs) automatic :: ts) :
    ∃ i ≤ j, ∃ changed ≠ [], e.Notifies h changed automatic i := by
  induction j using Nat.strong_induction_on generalizing f fs with
  | _ j ih =>
    by_cases hleft : e.Resumes h (f :: fs) automatic ts j
    · obtain ⟨m, hm, g, hearlier, -⟩ := hleft
      obtain ⟨i, hi, hmade⟩ := ih m hm hearlier
      exact ⟨i, by omega, hmade⟩
    · exact ⟨j, le_rfl, f :: fs, List.cons_ne_nil _ _, ts, ha, hleft⟩

/-- What every run does with the notifications of the fields of the host `h`, from the engine `e`
on. -/
structure TellsOfChanges (e : Engine) (h : HostId) (host : Host) : Prop where
  /-- As long as the tasks below a notification wait, it goes on field by field. -/
  progress : ∀ n changed automatic below k,
    (e.run n).agenda = .notify h changed automatic :: below →
    (∀ j < k, below.length < (e.run (n + j)).agenda.length) →
    (e.run n).Progress h changed automatic below k
  /-- At the turn of a field those are due who are subscribed to it then: by the subscriptions that
  were there, and those made since. They are told with the value that the field has then, and the
  other fields come behind them. -/
  turns : ∀ n f fs automatic below, (e.run n).agenda = .notify h (f :: fs) automatic :: below →
    ∃ t, (e.run n).host? h = some t ∧
      t.subscriptions = host.subscriptions ++ gather (·.enrols h) n e ∧
      (e.run n).turn? below.length = some (⟨h, f, automatic⟩, t.notices f automatic) ∧
      (e.run (n + 1)).agenda =
        .inform ((t.notices f automatic).map Notice.listener)
          (((t.form.field? f).map FieldState.id).getD "") (t.form.value? f) automatic ::
        .notify h fs automatic :: below
  /-- A subscription is made by a request for fields of the host. With the blank identifier it
  covers every field, else the fields that the identifier picked when it was made. -/
  covers : ∀ n s, s ∈ gather (·.enrols h) n e → ∃ j < n, ∃ r t,
    (e.run j).agenda.head?.bind (e.run j).request = some r ∧ r.host = h ∧
    (e.run j).host? h = some t ∧ s.listener = r.listener ∧
    ∀ f, s.covers f = true ↔ r.spec = .all ∨ f ∈ (t.resolve r.spec false).value
  /-- A listener is told with the next task, and goes to work in front of the others. -/
  calls : ∀ n l ls field v automatic below,
    (e.run n).agenda = .inform (l :: ls) field v automatic :: below →
    (e.run n).notice? below.length = some ⟨l, field, v, automatic⟩ ∧
    (e.run (n + 1)).agenda = l.tasks ++ .inform ls field v automatic :: below ∧
    (e.run (n + 1)).log = (e.run n).log ++ (Notice.mk l field v automatic).events.toArray
  /-- When it has come to its end, which is when the others have their turn, the notifications that
  have come up meanwhile are over. -/
  nests : ∀ n l ls field v automatic below k,
    (e.run n).agenda = .inform (l :: ls) field v automatic :: below →
    (e.run (n + 1 + k)).agenda.length ≤ below.length + 1 →
    ∃ m ≤ k, (e.run (n + 1)).Returns (.inform ls field v automatic :: below) m ∧
      ∀ j < m, ∀ i changed automatic' below',
        (e.run (n + 1 + j)).agenda = .notify i changed automatic' :: below' →
        ∃ x, j + x ≤ m ∧ (e.run (n + 1 + j)).Returns below' x
  /-- The host is marked as changed exactly if it was, or a notification of some fields was made
  that does not come from a program. -/
  marks : ∀ n t, (e.run n).host? h = some t → (t.changed = true ↔ host.changed = true ∨
    ∃ j < n, ∃ changed ≠ [], e.Notifies h changed false j)

/-- Every run tells of the changes of a host as `TellsOfChanges` says, whoever listens. -/
theorem tellsOfChanges {h : HostId} {host : Host} (hhost : e.host? h = some host) :
    e.TellsOfChanges h host where
  progress := by
    intro n changed automatic below k ha habove
    obtain ⟨t, ht, -⟩ := host?_run hhost n
    exact progress ht ha fun j hj => by
      rw [← run_add]
      exact habove j hj
  turns := by
    intro n f fs automatic below ha
    obtain ⟨t, ht, hsubs, -⟩ := host?_run hhost n
    refine ⟨t, ht, hsubs, by simp [turn?, ha, ht], ?_⟩
    rw [run_succ', agenda_step_notify ha ht, Host.notices, List.map_map]
    rfl
  covers := by
    intro n s hs
    obtain ⟨j, hj, henrols⟩ := mem_gather.1 hs
    obtain ⟨r, t, hr, hhost, ht, rfl⟩ := enrols_eq_some_iff.1 henrols
    exact ⟨j, hj, r, t, hr, hhost, ht, rfl, r.covers_subscription t⟩
  calls := by
    intro n l ls field v automatic below ha
    rw [run_succ']
    exact ⟨by simp [notice?, ha], agenda_step_inform ha, log_step_inform ha⟩
  nests := by
    intro n l ls field v automatic below k ha hend
    rw [run_add, run_succ'] at hend
    obtain ⟨m, hm, hreturns⟩ := exists_returns_inform ha hend
    refine ⟨m, hm, by rwa [run_succ'], fun j hj i changed automatic' below' hnested => ?_⟩
    rw [run_add, run_succ'] at hnested ⊢
    exact hreturns.nested hj hnested
  marks := by
    intro n t ht
    obtain ⟨u, hu, -, hchanged⟩ := host?_run hhost n
    obtain rfl : t = u := Option.some.inj (ht.symm.trans hu)
    rw [hchanged]
    refine or_congr_right ⟨?_, ?_⟩
    · rintro ⟨j, hj, hmarks⟩
      obtain ⟨f, fs, hhead⟩ := marks_eq_true_iff.1 hmarks
      obtain ⟨below, ha⟩ := List.head?_eq_some_iff.1 hhead
      obtain ⟨i, hi, hmade⟩ := exists_notifies ha
      exact ⟨i, by omega, hmade⟩
    · rintro ⟨j, hj, changed, hchanged, below, ha, -⟩
      obtain ⟨f, fs, rfl⟩ := List.exists_cons_of_ne_nil hchanged
      exact ⟨j, hj, marks_eq_true_iff.2 ⟨f, fs, by rw [ha]; rfl⟩⟩

/-- An order with a gift and a note. -/
def noteOrder : Host where
  config := {}
  form := ((Form.empty "order").add { id := "gift", kind := .text, value := "" }).add
    { id := "note", kind := .text, value := "" }
  actions := {}
  resolver := { rules := {} }
  evaluations := {}

/-- The first who is told of the gift subscribes someone to the note and writes the note. Another
subscription names the note twice. -/
def gossip : Engine where
  hosts := [noteOrder]
  sessions := [{ host := some 0 }]
  agenda := Task.ofScript [
    .listen "gift" "first" [.listen "note" "late" [], .write "note" (.text "thanks") true],
    .listen "" "all" [], .listen "note,note" "twice" [], .notify [0, 1] false]

/-- Who has been told of which field, as it is in the log, and whether a program changed it. -/
def heard (e : Engine) : List (String × String × Bool) :=
  e.log.toList.filterMap fun
    | .change label field _ automatic => some (label, field, automatic)
    | _ => none

/-- Writing the note is told to all who listen to it, the late one too, before the second listener
is told of the gift. The late one hears of the note again when its turn comes. -/
theorem tellsOfChanges_gossip : gossip.host? 0 = some noteOrder ∧
    gossip.TellsOfChanges 0 noteOrder ∧
    (gossip.run 38).heard = [("first", "gift", false), ("all", "note", true),
      ("twice", "note", true), ("late", "note", true), ("all", "gift", false),
      ("all", "note", false), ("twice", "note", false), ("late", "note", false)] ∧
    ((gossip.run 38).host? 0).map Host.changed = some true ∧ (gossip.run 38).agenda.length = 0 :=
  ⟨rfl, tellsOfChanges rfl, by decide +kernel, by decide +kernel, by decide +kernel⟩

end Engine

end FormRules
