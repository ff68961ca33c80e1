import FormRules.Proofs.Rounds
import FormRules.Proofs.Switches

/-!
# Silent changes

Effects and writes report which fields changed, and nobody hears of a change in any other way. A
report need not name each field that changed: whoever listens to a field listens to its group, so
one field of the group is enough (`Form.Tells`). What is reported is then heard by everyone who
listens, one report after the other (`Engine.hears_notify`).

Writes report that much, and so do all effects but one. Hiding a selected option moves the selection
of its list and reports nothing; `Form.tells_apply_iff` says that this is the only silent change. It
needs an option that is selected and, after all switches of the call, no longer offered
(`Form.MovesSelection`).
-/

namespace FormRules

namespace Form

/-- The field behind a handle has another checked state or value in `form'`. -/
def Differs (form form' : Form) (k : Handle) : Prop :=
  ∃ f g, form.field? k = some f ∧ form'.field? k = some g ∧
    (g.checked ≠ f.checked ∨ g.value ≠ f.value)

/-- For each field that differs afterwards, a field with its id is reported. -/
def Tells (form : Form) (after : Form × List Handle) : Prop :=
  ∀ k, form.Differs after.1 k → ∃ c ∈ after.2, form.ids[c]? = form.ids[k]?

/-- A selected option is among the fields, and the switches that the call makes leave it hidden. A
field that is named several times is switched several times. -/
def MovesSelection (form : Form) (hs : List Handle) (s : Switch) : Prop :=
  ∃ h ∈ hs, ∃ f, form.field? h = some f ∧ f.kind = .option ∧ f.checked = true ∧
    s.next^[hs.count h] (Effect.optionVisible.holds f) = false

theorem Differs.view {form form' : Form} {k : Handle} (h : form.Differs form' k) :
    (form'.field? k).map FieldState.view ≠ (form.field? k).map FieldState.view := by
  obtain ⟨f, g, hf, hg, hdiffers⟩ := h
  simp only [hf, hg, Option.map_some, FieldState.view, ne_eq, Option.some.injEq, Prod.mk.injEq]
  rintro ⟨-, hvalue, hchecked⟩
  exact hdiffers.elim (absurd hchecked) (absurd hvalue)

theorem Reports.tells {form form' : Form} {changed : List Handle}
    (h : Reports form form' changed) : form.Tells (form', changed) :=
  fun k hk => h.view k hk.view

/-! ## Options -/

theorem holds_optionVisible {f : FieldState} :
    Effect.optionVisible.holds f = false ↔ f.hidden = true ∧ f.disabled = true := by
  simp [Effect.holds]

theorem shows_applyOne_optionVisible (form : Form) (s : Switch) (h i : Handle) :
    (form.applyOne .optionVisible s h).1.shows i .optionVisible =
      (form.shows i .optionVisible).map (s.next^[if h == i then 1 else 0]) := by
  by_cases hi : h = i
  · subst hi
    unfold applyOne
    cases hf : form.field? h with
    | none => simp [shows, hf]
    | some f =>
      dsimp only
      split
      · next hsame => simp [shows, hf, ← hsame]
      · have hput : ∀ on, Effect.optionVisible.holds (Effect.optionVisible.put on f) = on := by
          intro on
          cases on <;> rfl
        simp [shows, switchField, field?_modify, hf, hput]
  · unfold applyOne
    split
    · simp [hi]
    · dsimp only
      split
      · simp [hi]
      · simp [hi, switchField, shows_modify_of_ne form hi]

/-- Each time that a field is named it is switched. -/
theorem shows_applyEach_optionVisible (form : Form) (s : Switch) (hs : List Handle) (i : Handle) :
    (applyEach (fun form h => form.applyOne .optionVisible s h) form hs).1.shows i .optionVisible =
      (form.shows i .optionVisible).map (s.next^[hs.count i]) := by
  induction hs generalizing form with
  | nil => simp [applyEach]
  | cons h hs ih =>
    rw [applyEach, ih, shows_applyOne_optionVisible, Option.map_map, ← Function.iterate_add,
      List.count_cons]

/-! ## Moving the selection -/

/-- A hidden option loses its selection in its turn, and gets none. -/
theorem field?_repairOne {form : Form} {i : Handle} {f : FieldState}
    (hf : form.field? i = some f) (hhidden : Effect.optionVisible.holds f = false) (h : Handle) :
    (form.repairOne h).field? i =
      some { f with checked := if h = i ∧ f.kind = .option then false else f.checked } := by
  obtain ⟨hh, hd⟩ := holds_optionVisible.1 hhidden
  unfold repairOne
  cases hg : form.field? h with
  | none =>
    have hne : h ≠ i := by
      rintro rfl
      simp [hf] at hg
    simp [hf, hne]
  | some g =>
    dsimp only
    split
    · next hcond =>
      have hfirst : (form.modify h fun f => { f with checked := false }).field? i =
          some { f with checked := if h = i ∧ f.kind = .option then false else f.checked } := by
        rw [field?_modify, hf]
        by_cases hi : h = i
        · subst hi
          obtain rfl := Option.some.inj (hf.symm.trans hg)
          simp [hcond.1]
        · simp [hi]
      split
      · next j hj =>
        have hji : j ≠ i := by
          rintro rfl
          obtain ⟨hlt, hoffered, -⟩ := List.findIdx?_eq_some_iff_getElem.1 hj
          have hfield : (form.modify h fun f => { f with checked := false }).fields[j] =
              { f with checked := if h = j ∧ f.kind = .option then false else f.checked } :=
            Option.some.inj ((List.getElem?_eq_getElem hlt).symm.trans hfirst)
          simp [hfield, FieldState.isOffered, hh, hd] at hoffered
        simp [field?_modify, hfirst, hji]
      · exact hfirst
    · next hcond =>
      rw [hf]
      by_cases hi : h = i
      · subst hi
        obtain rfl := Option.some.inj (hf.symm.trans hg)
        by_cases hkind : f.kind = .option
        · have hchecked : f.checked = false := by simpa [hkind, hh, hd] using hcond
          rw [if_pos ⟨rfl, hkind⟩, ← hchecked]
        · simp [hkind]
      · simp [hi]

theorem field?_repairSelection {form : Form} {i : Handle} {f : FieldState}
    (hf : form.field? i = some f) (hhidden : Effect.optionVisible.holds f = false)
    (hs : List Handle) : (form.repairSelection hs).field? i =
      some { f with checked := if i ∈ hs ∧ f.kind = .option then false else f.checked } := by
  unfold repairSelection
  induction hs generalizing form f with
  | nil => simp [hf]
  | cons h hs ih =>
    rw [List.foldl_cons, ih (field?_repairOne hf hhidden h) hhidden]
    by_cases hi : i = h
    · by_cases hkind : f.kind = .option <;> simp [hi, hkind]
    · simp [hi, Ne.symm hi]

/-- Without a hidden option that is selected nothing is repaired. -/
theorem repairSelection_eq_self {form : Form} {hs : List Handle}
    (h : ∀ i ∈ hs, ∀ f, form.field? i = some f → f.kind = .option → f.checked = true →
      Effect.optionVisible.holds f = true) : form.repairSelection hs = form := by
  unfold repairSelection
  induction hs with
  | nil => rfl
  | cons i hs ih =>
    have hfirst : form.repairOne i = form := by
      unfold repairOne
      split
      · rfl
      · next f hf =>
        refine if_neg fun ⟨hkind, hh, hd, hchecked⟩ => ?_
        have hoffered := h i List.mem_cons_self f hf hkind hchecked
        rw [holds_optionVisible.2 ⟨hh, hd⟩] at hoffered
        contradiction
    rw [List.foldl_cons, hfirst]
    exact ih fun j hj => h j (List.mem_cons_of_mem i hj)

/-- What a call makes of the options before it repairs the selection. -/
theorem field?_applyEach_optionVisible {form : Form} {i : Handle} {f : FieldState}
    (hf : form.field? i = some f) (hs : List Handle) (s : Switch) :
    ∃ g, (applyEach (fun form h => form.applyOne .optionVisible s h) form hs).1.field? i = some g ∧
      g.view = f.view ∧
      Effect.optionVisible.holds g = s.next^[hs.count i] (Effect.optionVisible.holds f) := by
  have hshows := shows_applyEach_optionVisible form s hs i
  rw [shows, shows, hf, Option.map_some, Option.map_some] at hshows
  obtain ⟨g, hg, hholds⟩ := Option.map_eq_some_iff.1 hshows
  have hreports := reports_applyEach (fun form h => reports_applyOne form .optionVisible s h) form hs
  rw [applyEach_unreported (fun form h => applyOne_unreported form (by simp) s h)] at hreports
  refine ⟨g, hg, ?_, hholds⟩
  by_contra hview
  obtain ⟨c, hc, -⟩ := hreports.view i (by simpa [hf, hg] using hview)
  simp at hc

/-- An option that is selected before the call and hidden after it is not selected after it. -/
theorem differs_of_movesSelection {form : Form} {hs : List Handle} {s : Switch}
    (h : form.MovesSelection hs s) : ∃ k, form.Differs (form.apply hs .optionVisible s).1 k := by
  obtain ⟨i, hi, f, hf, hkind, hchecked, hhidden⟩ := h
  obtain ⟨g, hg, hview, hholds⟩ := field?_applyEach_optionVisible hf hs s
  have hgkind : g.kind = .option := (congrArg Prod.fst hview).trans hkind
  have hrepaired := field?_repairSelection hg (hholds.trans hhidden) hs
  rw [if_pos ⟨hi, hgkind⟩] at hrepaired
  have hafter : ((form.apply hs .optionVisible s).1.field? i).map FieldState.checked = some false := by
    simp only [apply, if_true, field?_refresh, hrepaired, Option.map_some]
  obtain ⟨g', hg', hunchecked⟩ := Option.map_eq_some_iff.1 hafter
  exact ⟨i, f, g', hf, hg', Or.inl (by simp [hchecked, hunchecked])⟩

/-- Without a move of the selection, options are shown and hidden without a change in view. -/
theorem reports_apply_optionVisible {form : Form} {hs : List Handle} {s : Switch}
    (h : ¬ form.MovesSelection hs s) : Reports form (form.apply hs .optionVisible s).1
      (form.apply hs .optionVisible s).2 := by
  have heach := reports_applyEach (fun form h => reports_applyOne form .optionVisible s h) form hs
  have hsame : ((applyEach (fun form h => form.applyOne .optionVisible s h) form hs).1).repairSelection
      hs = (applyEach (fun form h => form.applyOne .optionVisible s h) form hs).1 := by
    refine repairSelection_eq_self fun i hi g hg hkind hchecked => ?_
    cases hf : form.field? i with
    | none =>
      have hshows := shows_applyEach_optionVisible form s hs i
      simp [shows, hf, hg] at hshows
    | some f =>
      obtain ⟨g', hg', hview, hholds⟩ := field?_applyEach_optionVisible hf hs s
      obtain rfl := Option.some.inj (hg.symm.trans hg')
      simp only [FieldState.view, Prod.mk.injEq] at hview
      by_contra hhidden
      rw [Bool.not_eq_true, hholds] at hhidden
      exact h ⟨i, hi, f, hf, hview.1 ▸ hkind, hview.2.2 ▸ hchecked, hhidden⟩
  have hreports := heach.trans (reports_refresh _)
  simpa [apply, hsame] using hreports

end Form

namespace Engine

/-! ## Hearing of a report -/

/-- A host keeps its fields and its subscriptions. -/
theorem exists_host_run {e : Engine} {h : HostId} {host : Host} (hhost : e.host? h = some host)
    (n : Nat) : ∃ host', (e.run n).host? h = some host' ∧ host.Grows host' := by
  induction n with
  | zero => exact ⟨host, hhost, .refl host⟩
  | succ n ih =>
    obtain ⟨host', hhost', hgrows⟩ := ih
    rw [run_succ']
    cases ha : (e.run n).agenda with
    | nil => exact ⟨host', by simpa [step, ha] using hhost', hgrows⟩
    | cons t ts =>
      obtain ⟨host'', hhost'', hgrows'⟩ := (extends_step ha).host h host' hhost'
      exact ⟨host'', hhost'', hgrows.trans hgrows'⟩

/-- It is the listener's turn at one of the first `n` tasks. -/
def Hears (e : Engine) (l : Listener) (n : Nat) : Prop :=
  ∃ j < n, ∃ ls field v automatic,
    (e.run j).agenda.head? = some (.inform (l :: ls) field v automatic)

variable {e : Engine} {l : Listener} {n : Nat} {ts : List Task}

theorem Hears.of_run {m : Nat} (h : (e.run m).Hears l n) : e.Hears l (m + n) := by
  obtain ⟨j, hj, ls, field, v, automatic, hhead⟩ := h
  exact ⟨m + j, by omega, ls, field, v, automatic, by rwa [run_add]⟩

theorem Hears.of_step (h : e.step.Hears l n) : e.Hears l (n + 1) := by
  rw [← run_one] at h
  rw [Nat.add_comm]
  exact h.of_run

/-- Tasks at the bottom of the agenda have their turn before the run gets below them. -/
theorem Hears.of_return {base : List Task} (hbase : base <:+ e.agenda)
    (hn : (e.run n).agenda.length ≤ base.length)
    (h : ∀ m, m ≤ n → (e.run m).agenda = base → (e.run m).Hears l (n - m)) : e.Hears l n := by
  obtain ⟨m, hm, hreturn, -⟩ := exists_return hbase hn
  have hheard := (h m hm hreturn).of_run
  rwa [Nat.add_sub_cancel' hm] at hheard

/-- It takes at least one task to get below a task. -/
theorem exists_step_of_run {t : Task} (ha : e.agenda = t :: ts)
    (hn : (e.run n).agenda.length ≤ ts.length) :
    ∃ m, n = m + 1 ∧ (e.step.run m).agenda.length ≤ ts.length := by
  cases n with
  | zero =>
    rw [run, ha, List.length_cons] at hn
    omega
  | succ m => exact ⟨m, rfl, by rwa [← run_succ]⟩

/-- Each listener that is to be informed has its turn before the tasks below have theirs. -/
theorem hears_inform {listeners : List Listener} {field : String} {v : Option Value}
    {automatic : Bool} (ha : e.agenda = .inform listeners field v automatic :: ts)
    (hl : l ∈ listeners) (hn : (e.run n).agenda.length ≤ ts.length) : e.Hears l n := by
  induction listeners generalizing e n with
  | nil => simp at hl
  | cons x xs ih =>
    obtain ⟨n, rfl, hn⟩ := exists_step_of_run ha hn
    rcases List.mem_cons.1 hl with rfl | hl
    · exact ⟨0, by omega, xs, field, v, automatic, by simp [run, ha]⟩
    · have hbase : .inform xs field v automatic :: ts <:+ e.step.agenda := by
        rw [agenda_step_inform ha]
        exact List.suffix_append _ _
      refine (Hears.of_return hbase (by simp; omega) fun m hm hreturn => ?_).of_step
      exact ih hreturn hl (by rwa [← run_add, Nat.add_sub_cancel' hm])

/-- Whoever listens to a reported field hears of it. -/
theorem hears_notify {h : HostId} {changed : List Handle} {automatic : Bool}
    (ha : e.agenda = .notify h changed automatic :: ts) {host : Host}
    (hhost : e.host? h = some host) {sub : Subscription} (hsub : sub ∈ host.subscriptions)
    {c : Handle} (hc : c ∈ changed) (hcovers : sub.covers c = true)
    (hn : (e.run n).agenda.length ≤ ts.length) : e.Hears sub.listener n := by
  induction changed generalizing e host n with
  | nil => simp at hc
  | cons f rest ih =>
    obtain ⟨n, rfl, hn⟩ := exists_step_of_run ha hn
    have hagenda := agenda_step_notify ha hhost
    rcases List.mem_cons.1 hc with rfl | hc
    · have hl : sub.listener ∈ (host.subscriptions.filter (·.covers c)).map Subscription.listener :=
        List.mem_map_of_mem (List.mem_filter.2 ⟨hsub, hcovers⟩)
      exact (hears_inform hagenda hl (by simp; omega)).of_step
    · have hbase : .notify h rest automatic :: ts <:+ e.step.agenda :=
        hagenda ▸ List.suffix_cons _ _
      refine (Hears.of_return hbase (by simp; omega) fun m hm hreturn => ?_).of_step
      obtain ⟨host', hhost', hgrows⟩ := exists_host_run hhost (m + 1)
      rw [run_succ] at hhost'
      have hsub' : sub ∈ host'.subscriptions := hgrows.subscriptions.subset hsub
      exact ih hreturn hhost' hsub' hc (by rwa [← run_add, Nat.add_sub_cancel' hm])

/-- Whoever listens to the group of a field that the next task changes has their turn before that
task is over. -/
def Informs (e : Engine) (h : HostId) : Prop :=
  ∀ host host', e.host? h = some host → e.step.host? h = some host' →
    ∀ k, host.form.Differs host'.form k → ∀ (spec : Spec) l, k ∈ host.form.pick spec.trigger →
      ⟨some (host.form.pick spec.trigger), l⟩ ∈ host.subscriptions →
        ∀ n, (e.run n).agenda.length < e.agenda.length → e.Hears l n

/-- A task that notifies of a report informs of every change that the report tells of. -/
theorem informs_of_tells {t : Task} {h : HostId} {host : Host} {after : Form × List Handle}
    (ha : e.agenda = t :: ts) (hhost : e.host? h = some host) (htells : host.form.Tells after)
    (hstep : ∃ automatic more, e.step.agenda = .notify h after.2 automatic :: (more ++ ts))
    (hform : e.step.host? h = some { host with form := after.1 }) : e.Informs h := by
  intro host₁ host₂ hhost₁ hhost₂ k hk spec l hpick hsub n hn
  obtain rfl := Option.some.inj (hhost.symm.trans hhost₁)
  obtain rfl := Option.some.inj (hform.symm.trans hhost₂)
  obtain ⟨automatic, more, hstep⟩ := hstep
  obtain ⟨c, hc, hid⟩ := htells k hk
  have hcovers : Subscription.covers ⟨some (host.form.pick spec.trigger), l⟩ c = true := by
    simpa [Subscription.covers] using Form.mem_pick_trigger_of_ids hpick hid
  rw [ha, List.length_cons] at hn
  obtain ⟨n, rfl, hn⟩ := exists_step_of_run ha (Nat.le_of_lt_succ hn)
  refine Hears.of_step ?_
  exact hears_notify hstep hform hsub hc hcovers (by simp; omega)

theorem informs_write {h : HostId} {host : Host} {field : String} {v : Value} {automatic : Bool}
    (ha : e.agenda = .write h field v automatic :: ts) (hhost : e.host? h = some host) :
    e.Informs h := by
  have htells := (Form.reports_write host.form (host.fields field false).value v).tells
  have hhost' : e.taken.host? h = some host := hhost
  refine informs_of_tells ha hhost htells ⟨automatic, [], ?_⟩ ?_
  · rw [step_of_agenda ha, perform, write]
    simp only [hhost']
    rw [← agenda_taken ha]
    cases host.watched <;> rfl
  · rw [step_of_agenda ha, perform, write]
    simp only [hhost']
    split
    · exact host?_updateForm hhost' _
    · exact host?_updateForm hhost' _

theorem informs_applyEffect {h : HostId} {host : Host} {field : String} {x : Effect} {s : Switch}
    {skip answers : Bool} (ha : e.agenda = .effect h field x s skip answers :: ts)
    (hhost : e.host? h = some host)
    (htells : host.form.Tells (host.form.apply (host.fields field false).value x s)) :
    e.Informs h := by
  have hhost' : e.taken.host? h = some host := hhost
  let after := host.form.apply (host.fields field false).value x s
  refine informs_of_tells ha hhost htells
    ⟨true, if answers then [.answer (.handles after.2)] else [], ?_⟩ ?_
  · rw [step_of_agenda ha, perform, applyEffect]
    simp only [hhost']
    rw [← agenda_taken ha]
    cases host.watched <;> rfl
  · rw [step_of_agenda ha, perform, applyEffect]
    simp only [hhost']
    split
    · exact host?_updateForm hhost' _
    · exact host?_updateForm hhost' _

end Engine

namespace Form

/-- An effect tells of every change, unless it moves the selection of a list. -/
theorem tells_apply_iff {form : Form} {hs : List Handle} {x : Effect} {s : Switch} :
    form.Tells (form.apply hs x s) ↔ ¬ (x = .optionVisible ∧ form.MovesSelection hs s) := by
  by_cases hx : x = .optionVisible
  · subst hx
    constructor
    · rintro htells ⟨-, hmoves⟩
      obtain ⟨k, hk⟩ := differs_of_movesSelection hmoves
      obtain ⟨c, hc, -⟩ := htells k hk
      rw [apply_unreported form hs (by simp) s] at hc
      contradiction
    · intro hmoves
      exact (reports_apply_optionVisible fun h => hmoves ⟨rfl, h⟩).tells
  · simpa [hx] using (reports_apply form hs hx s).tells

end Form

/-- Which changes are heard of. Every write tells of all its changes, and so does every effect that
does not move the selection of a list, and these alone; and of what they tell, everyone hears who
listens to the group of a field that changed. -/
theorem Engine.no_silent_change (form : Form) (hs : List Handle) :
    (∀ v : Value, form.Tells (form.write hs v)) ∧
    (∀ (x : Effect) (s : Switch),
      form.Tells (form.apply hs x s) ↔ ¬ (x = .optionVisible ∧ form.MovesSelection hs s)) ∧
    (∀ (e : Engine) (h : HostId) (host : Host) (field : String) (v : Value) (automatic : Bool),
      e.agenda.head? = some (.write h field v automatic) → e.host? h = some host → e.Informs h) ∧
    ∀ (e : Engine) (h : HostId) (host : Host) (field : String) (x : Effect) (s : Switch)
      (skip answers : Bool), e.agenda.head? = some (.effect h field x s skip answers) →
      e.host? h = some host →
      ¬ (x = .optionVisible ∧ host.form.MovesSelection (host.fields field false).value s) →
      e.Informs h := by
  refine ⟨fun v => (Form.reports_write form hs v).tells, fun x s => Form.tells_apply_iff, ?_, ?_⟩
  · intro e h host field v automatic ha hhost
    obtain ⟨ts, ha⟩ := List.head?_eq_some_iff.1 ha
    exact informs_write ha hhost
  · intro e h host field x s skip answers ha hhost hmoves
    obtain ⟨ts, ha⟩ := List.head?_eq_some_iff.1 ha
    exact informs_applyEffect ha hhost (Form.tells_apply_iff.2 hmoves)

/-- Two sizes, the first of which is picked. -/
def sizes (kind : FieldKind) : Form :=
  (Form.empty "order").addGroup kind "size" ["s", "m"] (some "s")

/-- The sizes as radio buttons, of which the second is about to be picked, and a script that listens
to the group. -/
def picking : Engine where
  hosts := [{ config := {}, form := sizes .radio, actions := {}, resolver := { rules := {} },
              evaluations := {}, subscriptions :=
                [⟨some ((sizes .radio).pick (Spec.fields [⟨"size", []⟩]).trigger),
                  .script "heard" []⟩] }]
  agenda := [.effect 0 "size:m" .checked .set false false]

/-- Picking the second of two radio buttons unchecks the first, which is not reported. The script
hears of it nevertheless. -/
theorem Engine.hears_picking : ((sizes .radio).apply [1] .checked .set).2 = [1] ∧
    (sizes .radio).Differs ((sizes .radio).apply [1] .checked .set).1 0 ∧
    picking.Hears (.script "heard" []) 5 := by
  have hform : (picking.step.host? 0).map Host.form =
      some ((sizes .radio).apply [1] .checked .set).1 := by decide +kernel
  obtain ⟨host', hhost', hform⟩ := Option.map_eq_some_iff.1 hform
  have hdiffers : (sizes .radio).Differs ((sizes .radio).apply [1] .checked .set).1 0 :=
    ⟨(sizes .radio).fields[0], ((sizes .radio).apply [1] .checked .set).1.fields[0], rfl, rfl,
      Or.inl (by decide)⟩
  refine ⟨by decide, hdiffers, ?_⟩
  exact (no_silent_change (sizes .radio) [1]).2.2.2 picking 0 _ "size:m" .checked .set false false
    rfl rfl (by simp) _ _ rfl hhost' 0 (hform ▸ hdiffers) (.fields [⟨"size", []⟩]) _ (by decide)
    List.mem_cons_self 5 (by decide +kernel)

/-- Hiding the picked option of a list picks the other one, and nothing is reported. -/
theorem Form.selection_moved_silently : ¬ ∀ (form : Form) (hs : List Handle) (x : Effect)
    (s : Switch), form.Tells (form.apply hs x s) := by
  intro h
  obtain ⟨c, hc, -⟩ := h (sizes .option) [0] .optionVisible .unset 1
    ⟨(sizes .option).fields[1], ((sizes .option).apply [0] .optionVisible .unset).1.fields[1], rfl,
      rfl, Or.inl (by decide)⟩
  have hnone : ((sizes .option).apply [0] .optionVisible .unset).2 = [] := by decide
  rw [hnone] at hc
  contradiction

end FormRules
