import FormRules.Proofs.Courses
import Mathlib.Data.Finset.Card

/-!
# Convergence of rules

The calls of an orderly sheet return, and what they leave is what the rules ask for
(`Engine.converges`). A task is replaced by simpler ones, which wake no rules that it would not have
woken (`Engine.Turn.descends`), and a rule wakes those that it feeds only. As no rule feeds itself,
the rules that one feeds, and those that they feed, are finitely many
(`Sheet.IsOrderly.wellFounded_feeds`), so every task of a run ends (`Sheet.IsOrderly.ends`).

Between calls no orders are left, and every rule with attachments has its present state as the last
one. What a rule wants in its last state is then there (`Engine.IsOn.shows_between`).
-/

namespace FormRules

open BuiltinAction Relation

/-! ## Termination -/

namespace Task

/-- How far a task is from those that nothing but a trigger follows. -/
def level : Task → Nat
  | .inform .. => 1
  | .notify .. => 2
  | .effect .. | .write .. => 3
  | .perform .. => 4
  | .dispatch .. => 5
  | .deliver .. => 6
  | .round .. => 7
  | .chain .. => 8
  | .step _ => 9
  | _ => 0

/-- How much of the same kind a task has still to do. -/
def length : Task → Nat
  | .inform listeners .. => listeners.length
  | .notify _ changed _ => changed.length
  | .dispatch _ tokens .. => tokens.length
  | .round _ _ _ pending => pending.length
  | .chain _ ops _ => ops.length
  | _ => 0

/-- The task is of a lower level, or has less to do. -/
def Simpler (t t' : Task) : Prop :=
  Prod.Lex (· < ·) (· < ·) (t.level, t.length) (t'.level, t'.length)

theorem wellFounded_simpler : WellFounded Simpler :=
  InvImage.wf (fun t : Task => (t.level, t.length)) (Prod.lex Nat.lt_wfRel Nat.lt_wfRel).wf

variable {S : Sheet} {e e' : Engine} {t t' : Task} {ts news : List Task}

theorem Simpler.of_level (h : t.level < t'.level) : t.Simpler t' := Prod.Lex.left _ _ h

theorem Simpler.of_length (h : t.level = t'.level) (hlength : t.length < t'.length) :
    t.Simpler t' := by
  unfold Simpler
  rw [h]
  exact Prod.Lex.right _ hlength

/-- What takes the place of a task is simpler. -/
theorem Unfolds.simpler (hu : t.Unfolds S e news) (ht : t' ∈ news) : t'.Simpler t := by
  have htwo : ∀ {a b : Task}, t' ∈ [a, b] → t' = a ∨ t' = b := fun h => by simpa using h
  have hthree : ∀ {a b c : Task}, t' ∈ [a, b, c] → t' = a ∨ t' = b ∨ t' = c :=
    fun h => by simpa using h
  cases hu with
  | idle hidle => simp at ht
  | unmoved => simp at ht
  | close => simp at ht
  | round =>
    rcases htwo ht with rfl | rfl
    · exact .of_level (by simp [Task.level])
    · exact .of_length rfl (Nat.lt_succ_self _)
  | deliver =>
    obtain rfl := List.mem_singleton.1 ht
    exact .of_level (by simp [Task.level])
  | dispatch =>
    rcases htwo ht with rfl | rfl
    · exact .of_level (by simp [Task.level])
    · exact .of_length rfl (Nat.lt_succ_self _)
  | perform =>
    rcases List.mem_append.1 ht with ht | ht
    · obtain ⟨o, -, rfl⟩ := List.mem_map.1 ht
      cases o <;> exact .of_level (by simp [Task.level, Operation.task])
    · obtain rfl := List.mem_singleton.1 ht
      exact .of_level (by simp [Task.level])
  | notify =>
    rcases htwo ht with rfl | rfl
    · exact .of_level (by simp [Task.level])
    · exact .of_length rfl (Nat.lt_succ_self _)
  | inform =>
    rcases hthree ht with rfl | rfl | rfl
    · exact .of_level (by simp [Task.level])
    · exact .of_level (by simp [Task.level])
    · exact .of_length rfl (Nat.lt_succ_self _)
  | write => rcases hthree ht with rfl | rfl | rfl <;> exact .of_level (by simp [Task.level])
  | condition =>
    obtain rfl := List.mem_singleton.1 ht
    exact .of_length rfl (Nat.lt_succ_self _)

/-- The run always comes to what is below the task. -/
def Ends (S : Sheet) (t : Task) : Prop :=
  ∀ ⦃e : Engine⦄ ⦃ts : List Task⦄, e.IsOn S → e.agenda = t :: ts → ∃ n, (e.run n).agenda = ts

end Task

namespace Engine

variable {S : Sheet} {e e' : Engine} {t : Task} {ts news : List Task}

/-- All tasks but triggers are replaced by simpler ones, which wake no others. -/
theorem Turn.descends (h : e.Turn S ts t e') (ht : ∀ q, t ≠ .trigger q) :
    ∃ news, e'.agenda = news ++ ts ∧
      ∀ t' ∈ news, t'.Simpler t ∧ ∀ j, t'.Wakes S j → t.Wakes S j := by
  cases h with
  | unfold hu hmarked hhost hhost' hfollows hform ha =>
    exact ⟨_, ha, fun t' ht' => ⟨hu.simpler ht', fun j => hu.wakes_of ht'⟩⟩
  | @effect field x on skip answers _ host host' more hmarked hhost hhost' hfollows hform hmore ha =>
    refine ⟨.notify 0 _ true :: more, ha, fun t' ht' => ?_⟩
    rcases List.mem_cons.1 ht' with rfl | ht'
    · refine ⟨.of_level (by simp [Task.level]), fun j hw => ?_⟩
      rcases hw with ⟨k, hk, hwatches⟩ | ⟨k, on', ho, -⟩
      · exact Task.wakes_of_changed hk hwatches
      · exact absurd ho id
    · obtain ⟨a, rfl⟩ := hmore t' ht'
      refine ⟨.of_level (by simp [Task.level]), fun j hw => ?_⟩
      rcases hw with hrouses | ⟨k, on', ho, -⟩
      · exact absurd hrouses id
      · exact absurd ho id
  | write hmarked hhost hhost' hfollows hform ha =>
    refine ⟨[.notify 0 _ _], ha, fun t' ht' => ?_⟩
    obtain rfl := List.mem_singleton.1 ht'
    exact ⟨.of_level (by simp [Task.level]), fun j _ => Or.inl trivial⟩
  | fire => exact absurd rfl (ht _)
  | attach hr hget hops length parent callbacks last hhosts hfirst ha =>
    refine ⟨[_, .chain _ _ _], ha, fun t' ht' => ⟨?_, fun j _ => Or.inl trivial⟩⟩
    simp only [List.mem_cons, List.not_mem_nil, or_false] at ht'
    rcases ht' with rfl | rfl
    · rcases hfirst with ⟨-, rfl⟩ | ⟨b, -, rfl⟩ <;> exact .of_level (by simp [Task.level])
    · exact .of_length rfl (Nat.lt_succ_self _)
  | start hr length queries hhost hhost' hfollows hform ha =>
    refine ⟨[.chain _ _ _, .hold _ _], ha, fun t' ht' => ⟨?_, fun j _ => Or.inl trivial⟩⟩
    simp only [List.mem_cons, List.not_mem_nil, or_false] at ht'
    rcases ht' with rfl | rfl <;> exact .of_level (by simp [Task.level])

/-- Tasks that end, one after another. -/
theorem exists_run_append (hS : S.IsOrderly) (hnews : ∀ t ∈ news, t.Ends S) (h : e.IsOn S)
    (ha : e.agenda = news ++ ts) : ∃ n, (e.run n).agenda = ts := by
  induction news generalizing e with
  | nil => exact ⟨0, ha⟩
  | cons t news ih =>
    obtain ⟨m, hm⟩ := hnews t List.mem_cons_self h ha
    obtain ⟨n, hn⟩ := ih (fun t ht => hnews t (List.mem_cons_of_mem _ ht)) (h.run hS m) hm
    exact ⟨m + n, by rw [run_add, hn]⟩

/-- A task ends if all that its turn leaves do. -/
theorem exists_run_of_turn (hS : S.IsOrderly) (h : e.IsOn S) (ha : e.step.agenda = news ++ ts)
    (hnews : ∀ t ∈ news, t.Ends S) : ∃ n, (e.run n).agenda = ts := by
  obtain ⟨n, hn⟩ := exists_run_append hS hnews (h.step hS) ha
  exact ⟨n + 1, by rw [run_succ, hn]⟩

end Engine

/-- A task ends if the rules that it wakes do. -/
theorem Task.ends_of_wakes {S : Sheet} (hS : S.IsOrderly) (t : Task)
    (hwakes : ∀ j, t.Wakes S j → (Task.trigger j).Ends S) : t.Ends S := by
  induction t using wellFounded_simpler.induction with
  | _ t ih =>
    by_cases ht : ∃ q, t = .trigger q
    · obtain ⟨q, rfl⟩ := ht
      exact hwakes q (Or.inl rfl)
    · intro e ts h ha
      obtain ⟨news, hnews, hbelow⟩ := (Engine.turn hS h ha).descends fun q heq => ht ⟨q, heq⟩
      refine Engine.exists_run_of_turn hS h hnews fun t' ht' => ?_
      obtain ⟨hsimpler, hwakes'⟩ := hbelow t' ht'
      exact ih t' hsimpler fun j hw => hwakes j (hwakes' j hw)

namespace Sheet.IsOrderly

variable {S : Sheet}

/-- Rules that do not feed themselves feed others in finite chains only. What a fed rule reaches is
reached by those that feed it, but the fed rule itself is not reached again. -/
theorem wellFounded_feeds (hS : S.IsOrderly) : WellFounded fun j q => S.Feeds q j := by
  classical
  let reach (q : QueryId) : Finset QueryId :=
    (Finset.range S.rules.length).filter fun j => TransGen S.Feeds q j
  refine Subrelation.wf (fun {j q} hfeeds => ?_)
    (InvImage.wf (fun q => (reach q).card) wellFounded_lt)
  refine Finset.card_lt_card ((Finset.ssubset_iff_of_subset fun k hk => ?_).2
    ⟨j, ?_, fun hmem => ?_⟩)
  · obtain ⟨hlt, hreach⟩ := Finset.mem_filter.1 hk
    exact Finset.mem_filter.2 ⟨hlt, .head hfeeds hreach⟩
  · exact Finset.mem_filter.2 ⟨Finset.mem_range.2 hfeeds.lt_length.2, .single hfeeds⟩
  · exact hS.acyclic j (Finset.mem_filter.1 hmem).2

/-- A trigger ends, if only with all that it causes. -/
theorem ends_trigger (hS : S.IsOrderly) (q : QueryId) : (Task.trigger q).Ends S := by
  induction q using hS.wellFounded_feeds.induction with
  | _ q ih =>
    intro e ts h ha
    have hturn := Engine.turn hS h ha
    generalize he : e.step = e' at hturn
    cases hturn with
    | unfold hu hmarked hhost hhost' hfollows hform ha' =>
      cases hu with
      | idle hidle => exact absurd hidle id
      | unmoved => exact ⟨1, by rw [Engine.run_one, he]; exact ha'⟩
    | fire length parent callbacks last hhosts ha' =>
      rw [← List.singleton_append, ← he] at ha'
      refine Engine.exists_run_of_turn hS h ha' fun t ht => ?_
      obtain rfl := List.mem_singleton.1 ht
      refine Task.ends_of_wakes hS _ fun j hw => ih j ?_
      rcases hw with hrouses | ⟨k, on, ⟨i, -, hwants⟩, hwatches⟩
      · exact absurd hrouses id
      · obtain ⟨r, hr, c, hc, hd, -⟩ := hwants.exists_command
        exact ⟨r, hr, c, hc, k, hd, hwatches⟩

/-- Every task of a run ends. -/
theorem ends (hS : S.IsOrderly) (t : Task) : t.Ends S :=
  t.ends_of_wakes hS fun j _ => hS.ends_trigger j

end Sheet.IsOrderly

/-! ## Between calls -/

namespace Sheet

/-- The sheet up to its `k`th call. -/
def take (S : Sheet) (k : Nat) : Sheet := { S with calls := S.calls.take k }

/-- A new engine on the form, with the calls to run. -/
def engine (S : Sheet) (watched : Bool) : Engine := .running .builtin S.form watched S.steps

end Sheet

namespace Engine

variable {S : Sheet} {e : Engine}

/-- Calls return, whatever rules they trigger. -/
theorem exists_run_drop (hS : S.IsOrderly) (watched : Bool) (k : Nat) :
    ∃ n, ((S.engine watched).run n).agenda = Task.ofScript (S.steps.drop k) := by
  induction k with
  | zero => exact ⟨0, rfl⟩
  | succ k ih =>
    obtain ⟨m, hm⟩ := ih
    have h : ((S.engine watched).run m).IsOn S := (isOn_running hS watched).run hS m
    cases hdrop : S.steps.drop k with
    | nil =>
      have hnil : S.steps.drop (k + 1) = [] := by
        rw [← List.drop_drop, hdrop, List.drop_nil]
      exact ⟨m, by rw [hm, hdrop, hnil]⟩
    | cons s rest =>
      have hrest : S.steps.drop (k + 1) = rest := by
        rw [← List.drop_drop, hdrop]
        rfl
      have hnews : Task.ofScript (s :: rest) = [.step s, .ran s.name] ++ Task.ofScript rest := rfl
      rw [hdrop, hnews] at hm
      obtain ⟨n, hn⟩ := exists_run_append hS (fun t _ => hS.ends t) h hm
      exact ⟨m + n, by rw [run_add, hn, hrest]⟩

/-- Between calls the rules of all earlier calls are built. -/
theorem IsOn.rules_take (h : e.IsOn S) {k : Nat} (ha : e.agenda = Task.ofScript (S.steps.drop k))
    {q : QueryId} {r : SwitchRule} (hr : (S.take k).rules[q]? = some r) :
    q < e.queries.length ∧ S.rules[q]? = some r := by
  let rest : Sheet := { S with calls := S.calls.drop k }
  have hrest : rest.steps = S.steps.drop k := List.map_drop
  have hsplit : S.rules = (S.take k).rules ++ rest.rules := by
    rw [Sheet.rules, Sheet.rules, Sheet.rules, ← List.filterMap_append]
    exact congrArg _ (List.take_append_drop k S.calls).symm
  have hscript := h.script
  rw [ha, ← hrest, chains_ofScript] at hscript
  have hlength := congrArg List.length hscript
  have hsum := congrArg List.length hsplit
  rw [List.length_map, List.length_map, List.length_drop] at hlength
  rw [List.length_append] at hsum
  obtain ⟨hq, -⟩ := List.getElem?_eq_some_iff.1 hr
  have hle : (S.take k).rules.length ≤ e.queries.length := by omega
  exact ⟨Nat.lt_of_lt_of_le hq hle, by rw [hsplit, List.getElem?_append_left hq, hr]⟩

/-- Between calls, the last result of a rule with callbacks is its present one. -/
theorem IsOn.last?_between (h : e.IsOn S) (houter : ∀ t ∈ e.agenda, t.IsOuter) {q : QueryId}
    (hq : q < e.queries.length) (hcallbacks : e.callbacks q ≠ []) :
    e.last? q = some (e.evaluate q).value := by
  have hrung : ¬ e.IsRung q := by
    rintro ⟨t, ht, p, -, hrings⟩
    exact not_rings_of_isOuter (houter t ht) hrings
  obtain ⟨s, hs⟩ : ∃ s, e.query? q = some s := ⟨_, List.getElem?_eq_getElem hq⟩
  exact (h.fresh q).last?_of_not_isRung h.plain hrung hs (h.queries q s hs).parent hcallbacks

/-- Between calls, all attachments of the rules are made. -/
theorem IsOn.length_callbacks_between (h : e.IsOn S) (houter : ∀ t ∈ e.agenda, t.IsOuter)
    {q : QueryId} (hq : q < e.queries.length) {r : SwitchRule} (hr : S.rules[q]? = some r) :
    (e.callbacks q).length = r.attachments.length := by
  rcases h.attached q r hq hr with hall | ⟨f, ops, name, hmem, -⟩
  · exact hall
  · exact absurd (houter _ hmem) id

/-- Between calls, what an action drives is as its rule wants it in its last state. -/
theorem IsOn.shows_between (hS : S.IsOrderly) (h : e.IsOn S) (houter : ∀ t ∈ e.agenda, t.IsOuter)
    {host : Host} (hhost : e.host? 0 = some host) {q : QueryId} (hq : q < e.queries.length)
    {r : SwitchRule} (hr : S.rules[q]? = some r) {b : Bool} (hb : e.last? q = some b) {c : Command}
    (hc : c ∈ r.commands) {k : Handle} (hk : k ∈ host.form.pick (Spec.lenient c.args.field))
    {x : Effect} {on : Bool} (hswitch : (x, on) ∈ switchesOf c.name c.args)
    (hwrites : x = .checked → ¬ S.Writes k) :
    host.form.shows k x = some (on == (b != c.failing)) := by
  obtain ⟨a, ha, hcommand⟩ := List.mem_flatMap.1 hc
  obtain ⟨name, hname, rfl⟩ := List.mem_map.1 hcommand
  obtain ⟨i, hi⟩ := List.getElem?_of_mem ha
  have hlt : i < (e.callbacks q).length :=
    (h.length_callbacks_between houter hq hr).symm ▸ (List.getElem?_eq_some_iff.1 hi).1
  have hpick : host.form.pick (Spec.lenient a.args.field) =
      S.form.pick (Spec.lenient a.args.field) := by
    have htarget : (Spec.lenient a.args.field).trigger = Spec.lenient a.args.field :=
      hS.targets r (List.mem_of_getElem? hr) ⟨a.failing, name, a.args⟩ hc
    obtain ⟨-, -, hfollows⟩ := h.host?_eq hhost
    rw [← htarget, hfollows.fields.pick_trigger]
  have hwants : S.Wants q i b k x (on == (b != a.failing)) := by
    have hflip : ((on == (b != a.failing)) != (b == a.failing)) = on := by
      cases on <;> cases b <;> cases a.failing <;> rfl
    exact ⟨r, a, hr, hi, hpick ▸ hk, name, List.mem_map.2 ⟨name, hname, rfl⟩, hflip.symm ▸ hswitch⟩
  rcases h.synced q i b k x _ hb hlt hwants hwrites with hshows | ⟨t, ht, on', ho⟩
  · exact hshows host hhost
  · exact absurd ho (Task.not_orders_of_isOuter (houter t ht) k x on')

/-- Rules that do not feed themselves converge. On any form of texts and checkboxes, under the
default configuration and with any orderly calls, every call returns; and when it has, the last
result of each rule with attachments is its present one, and each property that an action of the
rule drives is what the action prescribes for it, unless it is a box that some call writes to. -/
theorem converges (hS : S.IsOrderly) (watched : Bool) (k : Nat) :
    (∃ n, ((S.engine watched).run n).agenda = Task.ofScript (S.steps.drop k)) ∧
      ∀ n, ((S.engine watched).run n).agenda = Task.ofScript (S.steps.drop k) →
        ∃ host, ((S.engine watched).run n).host? 0 = some host ∧
          ∀ q r, (S.take k).rules[q]? = some r → r.attachments ≠ [] →
            ∃ b, (((S.engine watched).run n).evaluate q).value = b ∧
              ((S.engine watched).run n).last? q = some b ∧
              ∀ c ∈ r.commands, ∀ h ∈ host.form.pick (Spec.lenient c.args.field),
                ∀ x on, (x, on) ∈ switchesOf c.name c.args → (x = .checked → ¬ S.Writes h) →
                  host.form.shows h x = some (on == (b != c.failing)) := by
  refine ⟨exists_run_drop hS watched k, fun n hn => ?_⟩
  have h : ((S.engine watched).run n).IsOn S := (isOn_running hS watched).run hS n
  have houter : ∀ t ∈ ((S.engine watched).run n).agenda, t.IsOuter := by
    rw [hn]
    exact isOuter_ofScript
  obtain ⟨host, hhosts, -⟩ := h.host
  have hhost := host?_of_hosts hhosts
  refine ⟨host, hhost, fun q r hr hattachments => ?_⟩
  obtain ⟨hq, hrule⟩ := h.rules_take hn hr
  have hcallbacks : ((S.engine watched).run n).callbacks q ≠ [] := by
    have hlength := h.length_callbacks_between houter hq hrule
    intro hnil
    rw [hnil] at hlength
    exact hattachments (List.length_eq_zero_iff.1 hlength.symm)
  have hlast := h.last?_between houter hq hcallbacks
  exact ⟨_, rfl, hlast, fun c hc k' hk x on hswitch hwrites =>
    h.shows_between hS houter hhost hq hrule hlast hc hk hswitch hwrites⟩

end Engine

/-- A visa is asked for if the trip is abroad, which it is in all countries but one. -/
def trip : Sheet where
  form := ((((Form.empty "trip").add { id := "country", kind := .text, value := "" }).add
    { id := "abroad", kind := .checkbox, value := "yes" }).add
    { id := "visa", kind := .text, value := "" }).add { id := "note", kind := .text, value := "" }
  calls := [
    .rule ⟨.text "true", "abroad", [], [⟨false, ["show", "setRequired"], [.text "visa"]⟩,
      ⟨true, ["addClass"], [.text "note", .text "muted"]⟩]⟩ none,
    .rule ⟨.text "not-empty", "country", [⟨false, .text "not:NO", "country"⟩],
      [⟨false, ["setChecked"], [.text "abroad"]⟩]⟩ none,
    .write "country" (.text "FR") false]

set_option maxRecDepth 100000 in
theorem isOrderly_trip : trip.IsOrderly where
  plain := by
    unfold Form.IsPlain
    decide +kernel
  conditions := by decide +kernel
  names := by decide +kernel
  targets := by decide +kernel
  boxes := by
    have hboxes : ∀ r ∈ trip.rules, ∀ c ∈ r.commands,
        ∀ h ∈ trip.form.pick (Spec.lenient c.args.field), trip.Drives c h .checked →
          ∀ k ∈ trip.form.kinds[h]?, k.isCheckable = true := by decide +kernel
    exact fun r hr c hc h hd => hboxes r hr c hc h hd.1 hd
  distinct := by
    have hdistinct : (trip.rules.flatMap SwitchRule.commands).Pairwise fun c c' =>
        ∀ h ∈ trip.form.pick (Spec.lenient c.args.field), ∀ p ∈ switchesOf c.name c.args,
          ¬ trip.Drives c' h p.1 := by decide +kernel
    exact hdistinct.imp fun hne h e ⟨hh, on, hmem⟩ => hne h hh (e, on) hmem
  acyclic := by
    have hback : ∀ i < trip.rules.length, ∀ j < trip.rules.length, trip.Feeds i j → j < i := by
      decide +kernel
    have hlt : ∀ i j, TransGen trip.Feeds i j → j < i := by
      intro i j h
      induction h with
      | single h => exact hback i h.lt_length.1 _ h.lt_length.2 h
      | tail _ h ih => exact Nat.lt_trans (hback _ h.lt_length.1 _ h.lt_length.2 h) ih
    exact fun i h => Nat.lt_irrefl i (hlt i i h)

set_option maxRecDepth 100000 in
/-- Naming the country ticks the box, and the visa is required. -/
theorem converges_trip : ∃ host, ((trip.engine false).run 101).host? 0 = some host ∧
    ((trip.engine false).run 101).last? 0 = some true ∧ host.form.shows 1 .checked = some true ∧
      host.form.shows 2 .required = some true ∧
        host.form.shows 3 (.classed "muted") = some false := by
  have hrun : ((trip.engine false).run 101).agenda.length = 0 ∧
      (((trip.engine false).run 101).evaluate 0).value = true ∧
      (((trip.engine false).run 101).evaluate 1).value = true ∧
      ∀ host ∈ ((trip.engine false).run 101).host? 0,
        1 ∈ host.form.pick (Spec.lenient "abroad") ∧ 2 ∈ host.form.pick (Spec.lenient "visa") ∧
          3 ∈ host.form.pick (Spec.lenient "note") := by
    decide +kernel
  obtain ⟨hend, hvisa, habroad, hpicks⟩ := hrun
  obtain ⟨host, hhost, hrules⟩ :=
    (Engine.converges isOrderly_trip false 3).2 101 (List.length_eq_zero_iff.1 hend)
  obtain ⟨h₁, h₂, h₃⟩ := hpicks host hhost
  obtain ⟨b, hb, hlast, hshows⟩ := hrules 0 _ rfl (by simp)
  obtain ⟨b', hb', -, hshows'⟩ := hrules 1 _ rfl (by simp)
  obtain rfl : true = b := hvisa.symm.trans hb
  obtain rfl : true = b' := habroad.symm.trans hb'
  refine ⟨host, hhost, hlast, ?_, ?_, ?_⟩
  · exact hshows' ⟨false, "setChecked", [.text "abroad"]⟩
      (by simp [SwitchRule.commands, Attachment.commands]) 1 h₁ .checked true (by decide +kernel)
      fun _ => by decide +kernel
  · exact hshows ⟨false, "setRequired", [.text "visa"]⟩
      (by simp [SwitchRule.commands, Attachment.commands]) 2 h₂ .required true (by decide +kernel)
      fun h => by simp at h
  · exact hshows ⟨true, "addClass", [.text "note", .text "muted"]⟩
      (by simp [SwitchRule.commands, Attachment.commands]) 3 h₃ (.classed "muted") true
      (by decide +kernel) fun h => by simp at h

end FormRules
