import FormRules.Proofs.Hearings
import FormRules.Proofs.Mirrors

/-!
# Applying a list of tokens

To apply a list of tokens is to do something for one token after the other: look up its opposite if
the list is negated, then run the script or the action, or report that there is none. What runs may
do anything, apply lists of tokens of its own included, and may change which actions and opposites
there are for the tokens that follow.

`Engine.Performs` says that some tasks are done with all that they start. The rules
`Engine.Invokes`, `Engine.Treats` and `Engine.TreatsAll` say what becomes of tokens, each at its
moment, and `accountsForTokens` that a list is applied just so: one outcome for each token, in one
of the lists of the report; applying two lists one after the other is applying them as one; a token
that is not invoked makes no difference to the others; and a negated list does what the opposites of
its tokens do.
-/

namespace FormRules

/-! ## Outcomes and reports -/

/-- What became of a token, with the name that it is reported by. -/
inductive Outcome
  | applied (name : String)
  | skipped (name : String)
  | unknown (name : String)
deriving DecidableEq, Repr

namespace Outcome

/-- The action that ran, if one did. -/
def applied? : Outcome → Option String
  | applied name => some name
  | _ => none

/-- The label under which the token is reported as skipped, if it is. -/
def skipped? : Outcome → Option String
  | skipped name => some name
  | _ => none

/-- The name under which the token is reported as unknown, if it is. -/
def unknown? : Outcome → Option String
  | unknown name => some name
  | _ => none

end Outcome

namespace Report

/-- The report of some outcomes. -/
def of (os : List Outcome) : Report :=
  ⟨os.filterMap Outcome.applied?, os.filterMap Outcome.skipped?, os.filterMap Outcome.unknown?⟩

/-- The report with one more outcome. -/
def add (r : Report) : Outcome → Report
  | .applied name => r.addApplied name
  | .skipped name => r.addSkipped name
  | .unknown name => r.addUnknown name

/-- How many entries there are in the three lists. -/
def size (r : Report) : Nat := r.applied.length + r.skipped.length + r.unknown.length

/-- The report of outcomes in a row is that of the first ones with that of the others appended. -/
theorem of_append (os os' : List Outcome) : of (os ++ os') = (of os).append (of os') := by
  simp [of, append, List.filterMap_append]

theorem of_cons (o : Outcome) (os : List Outcome) : of (o :: os) = (of [o]).append (of os) :=
  of_append [o] os

/-- An outcome may be added to the report of those before it, or counted with those after it. -/
theorem add_append (r : Report) (o : Outcome) (os : List Outcome) :
    (r.add o).append (of os) = r.append (of (o :: os)) := by
  cases o <;>
    simp [add, addApplied, addSkipped, addUnknown, append, of, List.filterMap_cons,
      Outcome.applied?, Outcome.skipped?, Outcome.unknown?]

theorem append_empty (r : Report) : r.append {} = r := by simp [append]

theorem empty_append (r : Report) : ({} : Report).append r = r := by simp [append]

/-- Each outcome has an entry in exactly one of the lists. -/
theorem size_of (os : List Outcome) : (of os).size = os.length := by
  induction os with
  | nil => rfl
  | cons o os ih =>
    rw [List.length_cons, ← ih]
    cases o <;>
      simp [size, of, List.filterMap_cons, Outcome.applied?, Outcome.skipped?, Outcome.unknown?] <;>
      omega

end Report

/-- A name without an entry is not registered. -/
theorem Registry.contains_of_get?_eq_none {α : Type} {r : Registry α} {name : String}
    (h : r.get? name = none) : r.contains name = false := by
  rw [← r.isSome_get?, h]
  rfl

/-- An opposite that is not the name of an action was known before. -/
theorem Resolver.upTo_resolve (r : Resolver) {a : String} {named : String → Bool}
    (h : ∀ b, (r.resolve a named).1 = some b → named b = false) :
    (r.resolve a named).2.1.upTo false = r.upTo false := by
  rw [resolve_eq] at h ⊢
  cases hknown : r.known a with
  | some b => rfl
  | none =>
    simp only [hknown] at h ⊢
    cases hfind : (r.rules.candidates a).find? named with
    | none => rfl
    | some b =>
      have hnamed := List.find?_some hfind
      simp only [hfind] at h
      rw [h b rfl] at hnamed
      cases hnamed

/-- What a report calls a token that is skipped. -/
def Token.label : Token Step → String
  | .named name => name
  | .custom .. => customLabel

namespace Engine

/-! ## Work from its beginning to its end -/

/-- The tasks are done, with all that they start, and leave `f`. -/
def Performs (e : Engine) (tasks : List Task) (f : Engine) : Prop :=
  ∃ n, (e.schedule tasks).Returns e.agenda n ∧ (e.schedule tasks).run n = f

section Performs

variable {e f g : Engine} {tasks us : List Task}

theorem schedule_schedule (e : Engine) (ts us : List Task) :
    (e.schedule us).schedule ts = e.schedule (ts ++ us) := by
  simp [schedule]

/-- Scheduling forgets nothing of the engine. -/
theorem schedule_injective (tasks : List Task) : Function.Injective (schedule · tasks) := by
  intro e f h
  have hagenda := congrArg agenda h
  simp only [schedule, List.append_cancel_left_eq] at hagenda
  cases e
  cases f
  simp_all [schedule]

/-- Tasks that are done leave what was below them on the agenda. -/
theorem Performs.agenda (h : e.Performs tasks f) : f.agenda = e.agenda := by
  obtain ⟨n, hreturns, rfl⟩ := h
  exact hreturns.agenda

/-- What the tasks leave is determined. -/
theorem Performs.unique (hf : e.Performs tasks f) (hg : e.Performs tasks g) : g = f := by
  obtain ⟨m, hm, rfl⟩ := hf
  obtain ⟨n, hn, rfl⟩ := hg
  have hlt : ∀ {m n}, (e.schedule tasks).Returns e.agenda m →
      (e.schedule tasks).Returns e.agenda n → ¬ m < n := fun hm hn hlt => by
    have habove := hn.above _ hlt
    rw [hm.agenda] at habove
    exact Nat.lt_irrefl _ habove
  rw [Nat.le_antisymm (Nat.le_of_not_lt (hlt hm hn)) (Nat.le_of_not_lt (hlt hn hm))]

/-- Hosts stay while tasks are done. -/
theorem Performs.host {h : HostId} {host : Host} (hperforms : e.Performs tasks f)
    (hhost : e.host? h = some host) : ∃ t, f.host? h = some t := by
  obtain ⟨n, -, rfl⟩ := hperforms
  obtain ⟨t, ht, -⟩ := host?_run (e := e.schedule tasks) hhost n
  exact ⟨t, ht⟩

theorem performs_nil : e.Performs [] f ↔ f = e := by
  have hnone : e.Performs [] e := ⟨0, ⟨rfl, fun j hj => absurd hj (Nat.not_lt_zero j)⟩, rfl⟩
  exact ⟨hnone.unique, fun h => h ▸ hnone⟩

/-- A task whose own part is to schedule others is done when they are. -/
theorem performs_singleton {t : Task} (ht : e.perform t = f.schedule us)
    (ha : f.agenda = e.agenda) : e.Performs [t] g ↔ f.Performs us g := by
  have hstep : ∀ n, (e.schedule [t]).run (n + 1) = (f.schedule us).run n := fun n => by
    have hagenda : (e.schedule [t]).agenda = t :: e.agenda := rfl
    rw [run_succ, step_of_agenda hagenda, ← ht]
    rfl
  constructor
  · rintro ⟨n, hreturns, hrun⟩
    cases n with
    | zero => simpa [run, schedule] using congrArg List.length hreturns.agenda
    | succ n =>
      refine ⟨n, ⟨?_, fun j hj => ?_⟩, by rw [← hstep, hrun]⟩
      · rw [← hstep, hreturns.agenda, ha]
      · rw [← hstep, ha]
        exact hreturns.above _ (by omega)
  · rintro ⟨n, hreturns, hrun⟩
    refine ⟨n + 1, ⟨by rw [hstep, hreturns.agenda, ha], fun j hj => ?_⟩, by rw [hstep, hrun]⟩
    cases j with
    | zero => simp [run, schedule]
    | succ j =>
      rw [hstep, ← ha]
      exact hreturns.above j (by omega)

/-- Tasks in front of others are done first, with the others waiting. What is between the two is the
first moment when only the others are left. -/
theorem performs_append : e.Performs (tasks ++ us) f ↔
    ∃ g : Engine, (e.schedule us).Performs tasks (g.schedule us) ∧ g.Performs us f := by
  constructor
  · rintro ⟨n, hreturns, hrun⟩
    have hbase : us ++ e.agenda <:+ (e.schedule (tasks ++ us)).agenda :=
      ⟨tasks, by simp [schedule]⟩
    obtain ⟨m, hm, hagenda, habove⟩ := exists_return (n := n) hbase (by simp [hreturns.agenda])
    let g : Engine := { (e.schedule (tasks ++ us)).run m with agenda := e.agenda }
    have hg : (e.schedule (tasks ++ us)).run m = g.schedule us := by
      simp only [g, schedule, ← hagenda]
    refine ⟨g, ⟨m, ?_, ?_⟩, n - m, ⟨?_, fun j hj => ?_⟩, ?_⟩
    · rw [schedule_schedule]
      exact ⟨hagenda, habove⟩
    · rw [schedule_schedule, hg]
    · rw [← hg, ← run_add, Nat.add_sub_cancel' hm, hreturns.agenda]
    · rw [← hg, ← run_add]
      exact hreturns.above _ (by omega)
    · rw [← hg, ← run_add, Nat.add_sub_cancel' hm, hrun]
  · rintro ⟨g, ⟨m, hreturns, hrun⟩, n, hreturns', hrun'⟩
    have hagenda : g.agenda = e.agenda := by
      have h := hreturns.agenda
      rw [hrun] at h
      exact List.append_cancel_left h
    rw [schedule_schedule] at hreturns hrun
    rw [← hrun, hagenda] at hreturns'
    refine ⟨m + n, ⟨?_, fun j hj => ?_⟩, ?_⟩
    · rw [run_add, hreturns'.agenda]
    · by_cases hjm : j < m
      · exact Nat.lt_of_le_of_lt (by simp [schedule]) (hreturns.above j hjm)
      · have habove := hreturns'.above (j - m) (by omega)
        rwa [← run_add, Nat.add_sub_cancel' (Nat.le_of_not_lt hjm)] at habove
    · rw [run_add, hrun, hrun']

/-- In a mirror the same tasks are done. What lies above the tasks at the bottom is the same in
both, so both get down to them at once. -/
theorem Performs.mirror {exact : Bool} {x y : Engine} (hx : x.Performs tasks f)
    (hkeep : KeepSame x.agenda y.agenda) (m : Mirrors exact x.agenda y.agenda x y) :
    ∃ g, y.Performs tasks g ∧ Mirrors exact x.agenda y.agenda f g := by
  obtain ⟨n, hreturns, rfl⟩ := hx
  have hrun : ∀ j ≤ n, Mirrors exact x.agenda y.agenda ((x.schedule tasks).run j)
      ((y.schedule tasks).run j) := fun j hj =>
    (m.schedule tasks).run hkeep fun i hi => hreturns.above i (by omega)
  refine ⟨_, ⟨n, ⟨?_, fun j hj => ?_⟩, rfl⟩, hrun n le_rfl⟩
  · obtain ⟨top, htop, htop'⟩ := (hrun n le_rfl).agenda
    rw [hreturns.agenda] at htop
    rw [htop', List.append_left_eq_self.1 htop.symm]
    rfl
  · obtain ⟨top, htop, htop'⟩ := (hrun j hj.le).agenda
    have habove := hreturns.above j hj
    rw [htop, List.length_append] at habove
    rw [htop', List.length_append]
    omega

end Performs

/-! ## Tokens -/

/-- The tasks are done, and until they are, something keeps the host in use. -/
def Completes (h : HostId) (e : Engine) (tasks : List Task) (e' : Engine) : Prop :=
  (e.schedule [.hold [h] []]).Performs tasks (e'.schedule [.hold [h] []])

/-- The action that a host has under a name. -/
def action? (e : Engine) (h : HostId) (name : String) : Option Action :=
  (e.host? h).bind fun host => host.actions.get? name

/-- The id of a host's form. -/
def formId (e : Engine) (h : HostId) : String := ((e.host? h).map fun host => host.form.id).getD ""

/-- The opposite of a token; a script has none. -/
def opposite (e : Engine) (h : HostId) : Token Step → Option String × Engine
  | .custom .. => (none, e.note .customHasNoNegative)
  | .named name => e.negative h name

section Rules

variable (h : HostId) (args : Args) (skip : Bool)

/-- A token is taken as it is: what it names is run to its end, or reported if there is no such
action. -/
inductive Invokes : Engine → Token Step → Outcome → Engine → Prop
  | custom {e e' : Engine} {label : String} {run : List Step}
      (hrun : Completes h (e.record [.custom label skip]) (Task.ofScript run) e') :
      Invokes e (.custom label run) (.applied customLabel) e'
  | known {e e' : Engine} {name : String} {action : Action} (hname : e.action? h name = some action)
      (hrun : Completes h (e.note (.applyingAction name skip)) [.perform h action args skip] e') :
      Invokes e (.named name) (.applied name) e'
  | unknown {e : Engine} {name : String} (hname : e.action? h name = none) :
      Invokes e (.named name) (.unknown name) (e.note (.unknownAction name (e.formId h)))

/-- In a negated list the opposite is taken, which is looked up at this moment. -/
inductive Treats : Bool → Engine → Token Step → Outcome → Engine → Prop
  | plain {e e' : Engine} {t : Token Step} {o : Outcome} (htaken : Invokes h args skip e t o e') :
      Treats false e t o e'
  | skipped {e e' : Engine} {t : Token Step} (hopposite : e.opposite h t = (none, e')) :
      Treats true e t (.skipped t.label) e'
  | opposite {e e₁ e' : Engine} {t : Token Step} {name : String} {o : Outcome}
      (hopposite : e.opposite h t = (some name, e₁))
      (htaken : Invokes h args skip e₁ (.named name) o e') : Treats true e t o e'

/-- The tokens of a list are treated one after the other. -/
inductive TreatsAll (negate : Bool) : Engine → List (Token Step) → List Outcome → Engine → Prop
  | nil {e : Engine} : TreatsAll negate e [] [] e
  | cons {e e₁ e' : Engine} {t : Token Step} {ts : List (Token Step)} {o : Outcome}
      {os : List Outcome} (hfirst : Treats h args skip negate e t o e₁)
      (hrest : TreatsAll negate e₁ ts os e') : TreatsAll negate e (t :: ts) (o :: os) e'

end Rules

section Completes

variable {h : HostId} {e e' f : Engine} {tasks : List Task}

/-- What lies below completed tasks is left alone. -/
theorem Completes.agenda (hdone : Completes h e tasks e') : e'.agenda = e.agenda := by
  have hagenda := Performs.agenda hdone
  simpa [schedule] using hagenda

/-- Hosts stay while tasks are completed. -/
theorem Completes.host {i : HostId} {host : Host} (hdone : Completes h e tasks e')
    (hhost : e.host? i = some host) : ∃ t, e'.host? i = some t :=
  Performs.host (e := e.schedule [.hold [h] []]) (f := e'.schedule [.hold [h] []]) hdone hhost

/-- Tasks are completed in one way only. -/
theorem Completes.unique (hdone : Completes h e tasks e') (hdone' : Completes h e tasks f) :
    f = e' :=
  schedule_injective _ (Performs.unique hdone hdone')

theorem completes_nil : Completes h e [] e' ↔ e' = e := by
  rw [Completes, performs_nil]
  exact (schedule_injective [.hold [h] []]).eq_iff

/-- It does not matter which task waits, as long as it keeps the same in use. -/
theorem Performs.swap {t t' : Task} (hhosts : t'.hosts = t.hosts)
    (hqueries : t'.queries = t.queries) (hdone : (e.schedule [t]).Performs tasks (e'.schedule [t])) :
    (e.schedule [t']).Performs tasks (e'.schedule [t']) := by
  have hkeep : KeepSame (e.schedule [t]).agenda (e.schedule [t']).agenda :=
    ⟨fun h => by simp [schedule, hhosts], fun q => by simp [schedule, hqueries]⟩
  have hmirrors : Mirrors true (e.schedule [t]).agenda (e.schedule [t']).agenda (e.schedule [t])
      (e.schedule [t']) :=
    { agenda := ⟨[], rfl, rfl⟩
      hosts := rfl
      queries := rfl
      sessions := rfl
      current := rfl
      pinned := rfl
      log := fun _ => rfl
      answer := fun _ => rfl }
  obtain ⟨g, hg, hsame⟩ := hdone.mirror hkeep hmirrors
  have hagenda : e'.agenda = e.agenda := by simpa [schedule] using hdone.agenda
  have hg' : g = e'.schedule [t'] := by
    rw [hsame.eq_of_exact, hg.agenda]
    simp [schedule, hagenda]
  rwa [hg'] at hg

/-- What waits may be the rest of the list. -/
theorem completes_iff {t : Task} (hhosts : t.hosts = [h]) (hqueries : t.queries = []) :
    Completes h e tasks e' ↔ (e.schedule [t]).Performs tasks (e'.schedule [t]) :=
  ⟨Performs.swap hhosts hqueries, Performs.swap hhosts.symm hqueries.symm⟩

end Completes

section Rules

variable {h : HostId} {args : Args} {negate skip : Bool} {e : Engine} {host : Host}

/-- Looking up an opposite schedules nothing. -/
theorem agenda_opposite (e : Engine) (h : HostId) (t : Token Step) :
    (e.opposite h t).2.agenda = e.agenda := by
  cases t with
  | custom label run => rfl
  | named name =>
    unfold opposite negative
    cases e.host? h <;> rfl

/-- Looking up an opposite may have it stored by the resolver of the host, and changes nothing else
of it. -/
theorem host?_opposite (hhost : e.host? h = some host) (t : Token Step) :
    ∃ resolver, (e.opposite h t).2.host? h = some { host with resolver } := by
  cases t with
  | custom label run => exact ⟨host.resolver, hhost⟩
  | named name =>
    refine ⟨(host.resolver.resolve name host.actions.contains).2.1, ?_⟩
    simp only [opposite, negative, hhost]
    change (e.updateHost h _).host? h = _
    rw [host?_updateHost, if_pos rfl, hhost]
    rfl

/-- The next token leads to `e₀` with the tasks `due` in front of the rest of the list, and `o` is
its outcome once they are done. -/
structure Starts (h : HostId) (args : Args) (skip negate : Bool) (e : Engine) (t : Token Step)
    (e₀ : Engine) (due : List Task) (o : Outcome) : Prop where
  agenda : e₀.agenda = e.agenda
  host : ∃ s, e₀.host? h = some s
  dispatch : ∀ report next, e.dispatch h args negate skip report next t =
    e₀.schedule (due ++ [next (report.add o)])
  treats : ∀ o' e', Treats h args skip negate e t o' e' ↔ o' = o ∧ Completes h e₀ due e'

/-- In a list that is not negated tokens are invoked as they are. -/
theorem treats_plain {t : Token Step} {o : Outcome} {e' : Engine} :
    Treats h args skip false e t o e' ↔ Invokes h args skip e t o e' :=
  ⟨fun | .plain htaken => htaken, .plain⟩

/-- A token that is invoked starts something, whatever it names. -/
theorem exists_starts_plain (hhost : e.host? h = some host) (args : Args) (skip : Bool)
    (t : Token Step) : ∃ e₀ due o, Starts h args skip false e t e₀ due o := by
  cases t with
  | custom label run =>
    refine ⟨e.record [.custom label skip], Task.ofScript run, .applied customLabel,
      { agenda := rfl
        host := ⟨host, hhost⟩
        dispatch := fun _ _ => rfl
        treats := fun o' e' => treats_plain.trans ⟨?_, ?_⟩ }⟩
    · rintro ⟨hrun⟩
      exact ⟨rfl, hrun⟩
    · rintro ⟨rfl, hrun⟩
      exact .custom hrun
  | named name =>
    have haction : e.action? h name = host.actions.get? name := by rw [action?, hhost]; rfl
    have hid : e.formId h = host.form.id := by rw [formId, hhost]; rfl
    cases hget : host.actions.get? name with
    | some action =>
      refine ⟨e.note (.applyingAction name skip), [.perform h action args skip], .applied name,
        { agenda := rfl
          host := ⟨host, hhost⟩
          dispatch := fun _ _ => by simp [Engine.dispatch, invoke, hhost, hget, Report.add]
          treats := fun o' e' => treats_plain.trans ⟨?_, ?_⟩ }⟩
      · rintro (_ | ⟨hname, hrun⟩ | hname)
        · rw [haction, hget, Option.some.injEq] at hname
          exact ⟨rfl, hname ▸ hrun⟩
        · rw [haction, hget] at hname
          cases hname
      · rintro ⟨rfl, hrun⟩
        exact .known (haction.trans hget) hrun
    | none =>
      refine ⟨e.note (.unknownAction name host.form.id), [], .unknown name,
        { agenda := rfl
          host := ⟨host, hhost⟩
          dispatch := fun _ _ => by simp [Engine.dispatch, invoke, hhost, hget, Report.add]
          treats := fun o' e' => treats_plain.trans ⟨?_, ?_⟩ }⟩
      · rintro (_ | ⟨hname, hrun⟩ | hname)
        · rw [haction, hget] at hname
          cases hname
        · exact ⟨rfl, completes_nil.2 (by rw [hid])⟩
      · rintro ⟨rfl, hrun⟩
        rw [completes_nil.1 hrun, ← hid]
        exact .unknown (haction.trans hget)

/-- The first token of a negated list is dispatched as its opposite would be in a plain one, or
skipped if it has none. -/
theorem dispatch_opposite (e : Engine) (h : HostId) (args : Args) (skip : Bool) (report : Report)
    (next : Report → Task) (t : Token Step) : e.dispatch h args true skip report next t =
      match e.opposite h t with
      | (some name, e₁) => e₁.dispatch h args false skip report next (.named name)
      | (none, e₁) => e₁.schedule [next (report.addSkipped t.label)] := by
  cases t with
  | custom label run => rfl
  | named name =>
    simp only [dispatch, opposite, if_true]
    rcases e.negative h name with ⟨_ | negative, e₁⟩ <;> rfl

/-- Every token of a list starts something, negated or not. -/
theorem exists_starts (hhost : e.host? h = some host) (args : Args) (negate skip : Bool)
    (t : Token Step) : ∃ e₀ due o, Starts h args skip negate e t e₀ due o := by
  cases negate with
  | false => exact exists_starts_plain hhost args skip t
  | true =>
    have hagenda₁ := e.agenda_opposite h t
    obtain ⟨resolver, hhost₁⟩ := host?_opposite hhost t
    rcases hopposite : e.opposite h t with ⟨_ | name, e₁⟩
    · rw [hopposite] at hagenda₁ hhost₁
      refine ⟨e₁, [], .skipped t.label,
        { agenda := hagenda₁
          host := ⟨_, hhost₁⟩
          dispatch := fun _ _ => by rw [dispatch_opposite, hopposite]; rfl
          treats := fun o' e' => ⟨?_, ?_⟩ }⟩
      · rintro (_ | hskipped | ⟨hfound, -⟩)
        · rw [hopposite, Prod.mk.injEq] at hskipped
          exact ⟨rfl, completes_nil.2 hskipped.2.symm⟩
        · rw [hopposite] at hfound
          cases hfound
      · rintro ⟨rfl, hdone⟩
        rw [completes_nil.1 hdone]
        exact .skipped hopposite
    · rw [hopposite] at hagenda₁ hhost₁
      obtain ⟨e₀, due, o, hstarts⟩ := exists_starts_plain hhost₁ args skip (.named name)
      refine ⟨e₀, due, o,
        { agenda := hstarts.agenda.trans hagenda₁
          host := hstarts.host
          dispatch := fun _ _ => by rw [dispatch_opposite, hopposite]; exact hstarts.dispatch _ _
          treats := fun o' e' => ?_ }⟩
      rw [← hstarts.treats, treats_plain]
      refine ⟨?_, .opposite hopposite⟩
      rintro (_ | hskipped | ⟨hfound, htaken⟩)
      · rw [hopposite] at hskipped
        cases hskipped
      · rw [hopposite, Prod.mk.injEq, Option.some.injEq] at hfound
        obtain ⟨rfl, rfl⟩ := hfound
        exact htaken

section Treats

variable {t : Token Step} {ts ts' : List (Token Step)} {o o' : Outcome} {os os' : List Outcome}
  {e' f : Engine}

/-- What becomes of a token is determined. -/
theorem Treats.unique (hhost : e.host? h = some host) (ht : Treats h args skip negate e t o e')
    (ht' : Treats h args skip negate e t o' f) : o' = o ∧ f = e' := by
  obtain ⟨e₀, due, o₀, hstarts⟩ := exists_starts hhost args negate skip t
  obtain ⟨rfl, hdone⟩ := (hstarts.treats _ _).1 ht
  obtain ⟨rfl, hdone'⟩ := (hstarts.treats _ _).1 ht'
  exact ⟨rfl, hdone.unique hdone'⟩

/-- The host is still there after a token, for the next one to be treated. -/
theorem Treats.exists_host (hhost : e.host? h = some host)
    (ht : Treats h args skip negate e t o e') : ∃ s, e'.host? h = some s := by
  obtain ⟨e₀, due, o₀, hstarts⟩ := exists_starts hhost args negate skip t
  obtain ⟨s, hs⟩ := hstarts.host
  exact ((hstarts.treats _ _).1 ht).2.host hs

/-- The host is still there after the tokens. -/
theorem TreatsAll.exists_host (hhost : e.host? h = some host)
    (hts : TreatsAll h args skip negate e ts os e') : ∃ s, e'.host? h = some s := by
  induction hts generalizing host with
  | nil => exact ⟨host, hhost⟩
  | cons hfirst hrest ih =>
    obtain ⟨s, hs⟩ := hfirst.exists_host hhost
    exact ih hs

/-- A list of tokens has one list of outcomes and one end. -/
theorem TreatsAll.unique (hhost : e.host? h = some host)
    (hts : TreatsAll h args skip negate e ts os e')
    (hts' : TreatsAll h args skip negate e ts os' f) : os' = os ∧ f = e' := by
  induction hts generalizing host os' with
  | nil =>
    cases hts'
    exact ⟨rfl, rfl⟩
  | cons hfirst hrest ih =>
    cases hts' with
    | cons hfirst' hrest' =>
      obtain ⟨rfl, rfl⟩ := hfirst.unique hhost hfirst'
      obtain ⟨s, hs⟩ := hfirst.exists_host hhost
      obtain ⟨rfl, rfl⟩ := ih hs hrest'
      exact ⟨rfl, rfl⟩

/-- Each token has one outcome. -/
theorem TreatsAll.length_eq (hts : TreatsAll h args skip negate e ts os e') :
    os.length = ts.length := by
  induction hts with
  | nil => rfl
  | cons hfirst hrest ih => rw [List.length_cons, List.length_cons, ih]

/-- Tokens in a row are treated by treating the first ones and then the others. -/
theorem treatsAll_append : TreatsAll h args skip negate e (ts ++ ts') os e' ↔
    ∃ xs f ys, TreatsAll h args skip negate e ts xs f ∧ TreatsAll h args skip negate f ts' ys e' ∧
      os = xs ++ ys := by
  induction ts generalizing e os with
  | nil =>
    refine ⟨fun hts => ⟨[], e, os, .nil, hts, rfl⟩, ?_⟩
    rintro ⟨_, f, ys, ⟨⟩, hts, rfl⟩
    exact hts
  | cons t ts ih =>
    constructor
    · rintro (_ | ⟨hfirst, hrest⟩)
      obtain ⟨xs, f, ys, hxs, hys, rfl⟩ := ih.1 hrest
      exact ⟨_ :: xs, f, ys, .cons hfirst hxs, hys, rfl⟩
    · rintro ⟨_, f, ys, ⟨⟩ | ⟨hfirst, hrest⟩, hys, rfl⟩
      exact .cons hfirst (ih.2 ⟨_, f, ys, hrest, hys, rfl⟩)

end Treats

/-! ## Calls -/

/-- A list without tokens is over, and its report answers the one who asked for it. -/
theorem performs_dispatch_nil {report : Report} {answers : Bool} {f : Engine} :
    e.Performs [.dispatch h [] args negate skip report answers] f ↔
      f = if answers then e.reply (.report report) else e := by
  have hperform : e.perform (.dispatch h [] args negate skip report answers) =
      (if answers then e.reply (.report report) else e).schedule [] := rfl
  rw [performs_singleton hperform (by cases answers <;> rfl), performs_nil]

/-- A list is dispatched by treating its first token, and the rest with its outcome in the report.
-/
theorem performs_dispatch_cons (hhost : e.host? h = some host) {t : Token Step}
    {ts : List (Token Step)} {report : Report} {answers : Bool} {f : Engine} :
    e.Performs [.dispatch h (t :: ts) args negate skip report answers] f ↔
      ∃ o e₁, Treats h args skip negate e t o e₁ ∧
        e₁.Performs [.dispatch h ts args negate skip (report.add o) answers] f := by
  obtain ⟨e₀, due, o, hstarts⟩ := exists_starts hhost args negate skip t
  have hperform : e.perform (.dispatch h (t :: ts) args negate skip report answers) =
      e₀.schedule (due ++ [.dispatch h ts args negate skip (report.add o) answers]) :=
    hstarts.dispatch report (.dispatch h ts args negate skip · answers)
  rw [performs_singleton hperform hstarts.agenda, performs_append]
  constructor
  · rintro ⟨e₁, hdone, hrest⟩
    exact ⟨o, e₁, (hstarts.treats o e₁).2 ⟨rfl, (completes_iff rfl rfl).2 hdone⟩, hrest⟩
  · rintro ⟨o', e₁, ht, hrest⟩
    obtain ⟨rfl, hdone⟩ := (hstarts.treats o' e₁).1 ht
    exact ⟨e₁, (completes_iff rfl rfl).1 hdone, hrest⟩

/-- A call comes back just if its tokens come through one after the other. -/
theorem performs_dispatch (hhost : e.host? h = some host) {ts : List (Token Step)} {report : Report}
    {answers : Bool} {f : Engine} :
    e.Performs [.dispatch h ts args negate skip report answers] f ↔
      ∃ os e', TreatsAll h args skip negate e ts os e' ∧
        f = if answers then e'.reply (.report (report.append (.of os))) else e' := by
  induction ts generalizing e host report with
  | nil =>
    have hreport : report.append (.of []) = report := report.append_empty
    rw [performs_dispatch_nil]
    constructor
    · rintro rfl
      exact ⟨[], e, .nil, by rw [hreport]⟩
    · rintro ⟨_, _, ⟨⟩, hf⟩
      rwa [hreport] at hf
  | cons t ts ih =>
    rw [performs_dispatch_cons hhost]
    constructor
    · rintro ⟨o, e₁, hfirst, hrest⟩
      obtain ⟨s, hs⟩ := hfirst.exists_host hhost
      obtain ⟨os, e', hrest', rfl⟩ := (ih hs).1 hrest
      exact ⟨o :: os, e', .cons hfirst hrest', by rw [Report.add_append]⟩
    · rintro ⟨_, e', _ | ⟨hfirst, hrest⟩, rfl⟩
      obtain ⟨s, hs⟩ := hfirst.exists_host hhost
      exact ⟨_, _, hfirst, (ih hs).2 ⟨_, e', hrest, by rw [Report.add_append]⟩⟩

/-- Applying the list comes to its end and leaves `e'`, and its report is `r`. -/
def Applies (e : Engine) (h : HostId) (ts : List (Token Step)) (args : Args) (negate skip : Bool)
    (r : Report) (e' : Engine) : Prop :=
  e.Performs [.dispatch h ts args negate skip {} false] e' ∧
    e.Performs [.dispatch h ts args negate skip {} true] (e'.reply (.report r))

/-- Applying a list is treating its tokens and reporting their outcomes. -/
theorem applies_iff (hhost : e.host? h = some host) {ts : List (Token Step)} {r : Report}
    {e' : Engine} : e.Applies h ts args negate skip r e' ↔
      ∃ os, TreatsAll h args skip negate e ts os e' ∧ r = .of os := by
  simp only [Applies, performs_dispatch hhost, Report.empty_append]
  constructor
  · rintro ⟨⟨os, f, hts, rfl⟩, os', f', hts', hanswer⟩
    obtain ⟨rfl, rfl⟩ := hts.unique hhost hts'
    have hreport : (Answer.report r) = .report (.of os') := congrArg Engine.answer hanswer
    exact ⟨os', hts, by injection hreport⟩
  · rintro ⟨os, hts, rfl⟩
    exact ⟨⟨os, e', hts, rfl⟩, os, e', hts, rfl⟩

/-- One list after the other is both as one, and the report is joined. -/
theorem applies_append (hhost : e.host? h = some host) {ts ts' : List (Token Step)} {r : Report}
    {e' : Engine} : e.Applies h (ts ++ ts') args negate skip r e' ↔
      ∃ r₁ f r₂, e.Applies h ts args negate skip r₁ f ∧ f.Applies h ts' args negate skip r₂ e' ∧
        r = r₁.append r₂ := by
  constructor
  · intro happlies
    obtain ⟨os, hts, rfl⟩ := (applies_iff hhost).1 happlies
    obtain ⟨xs, f, ys, hxs, hys, rfl⟩ := treatsAll_append.1 hts
    obtain ⟨s, hs⟩ := hxs.exists_host hhost
    exact ⟨.of xs, f, .of ys, (applies_iff hhost).2 ⟨xs, hxs, rfl⟩,
      (applies_iff hs).2 ⟨ys, hys, rfl⟩, Report.of_append xs ys⟩
  · rintro ⟨r₁, f, r₂, hfirst, hsecond, rfl⟩
    obtain ⟨xs, hxs, rfl⟩ := (applies_iff hhost).1 hfirst
    obtain ⟨s, hs⟩ := hxs.exists_host hhost
    obtain ⟨ys, hys, rfl⟩ := (applies_iff hs).1 hsecond
    exact (applies_iff hhost).2 ⟨xs ++ ys, treatsAll_append.2 ⟨xs, f, ys, hxs, hys, rfl⟩,
      (Report.of_append xs ys).symm⟩

/-! ## Verdicts -/

/-- The action's name that a token stands for at this moment. -/
def Names (e : Engine) (h : HostId) (negate : Bool) (t : Token Step) (name : String) : Prop :=
  ∃ n, t = .named n ∧ if negate then (e.negative h n).1 = some name else n = name

/-- What the outcome `o` says of a token that was treated. -/
structure Verdict (h : HostId) (args : Args) (skip negate : Bool) (e : Engine) (t : Token Step)
    (o : Outcome) (e' : Engine) : Prop where
  skipped : ∀ name, o = .skipped name ↔ name = t.label ∧ negate = true ∧
    ((∃ label run, t = .custom label run) ∨ ∃ n, t = .named n ∧ (e.negative h n).1 = none)
  unknown : ∀ name, o = .unknown name ↔ e.Names h negate t name ∧ e.action? h name = none
  /-- The script or the action is run, once, to its end. -/
  applied : ∀ name, o = .applied name →
    (∃ label run, t = .custom label run ∧ negate = false ∧ name = customLabel ∧
      Completes h (e.record [.custom label skip]) (Task.ofScript run) e') ∨
    ∃ action, e.Names h negate t name ∧ e.action? h name = some action ∧
      Completes h ((if negate then (e.opposite h t).2 else e).note (.applyingAction name skip))
        [.perform h action args skip] e'

/-- Looking up an opposite registers no action. -/
theorem action?_opposite (e : Engine) (h i : HostId) (t : Token Step) (name : String) :
    (e.opposite h t).2.action? i name = e.action? i name := by
  cases t with
  | custom label run => rfl
  | named n =>
    unfold opposite negative
    cases hhost : e.host? h with
    | none => rfl
    | some host =>
      change ((e.updateHost h _).host? i).bind _ = _
      rw [host?_updateHost]
      split
      · rw [action?]
        cases e.host? i <;> rfl
      · rfl

/-- The verdict on a token that stands for a name. -/
theorem verdict_of_names {n name : String} {o : Outcome} {e₁ e' : Engine}
    (hnames : ∀ other, e.Names h negate (.named n) other ↔ other = name)
    (he₁ : e₁ = if negate then (e.opposite h (.named n)).2 else e)
    (htaken : Invokes h args skip e₁ (.named name) o e') :
    Verdict h args skip negate e (.named n) o e' := by
  have hfound : ¬ (negate = true ∧ (e.negative h n).1 = none) := by
    rintro ⟨rfl, hnone⟩
    obtain ⟨_, ⟨⟩, hsome⟩ := (hnames name).2 rfl
    rw [if_pos rfl, hnone] at hsome
    cases hsome
  have haction : e₁.action? h name = e.action? h name := by
    rw [he₁]
    split
    · exact action?_opposite e h h (.named n) name
    · rfl
  cases htaken with
  | known hname hrun =>
    rw [haction] at hname
    exact
      { skipped := fun other => by simpa using fun _ => hfound
        unknown := fun other => by
          simp only [reduceCtorEq, hnames, false_iff, not_and]
          rintro rfl
          simp [hname]
        applied := fun other hother => by
          obtain rfl : name = other := by injection hother
          exact .inr ⟨_, (hnames name).2 rfl, hname, he₁ ▸ hrun⟩ }
  | unknown hname =>
    rw [haction] at hname
    exact
      { skipped := fun other => by simpa using fun _ => hfound
        unknown := fun other => by
          rw [Outcome.unknown.injEq, hnames, eq_comm]
          exact ⟨fun heq => ⟨heq, heq ▸ hname⟩, And.left⟩
        applied := fun other hother => by cases hother }

/-- Every outcome is justified by what is registered at its moment. -/
theorem Treats.verdict {t : Token Step} {o : Outcome} {e' : Engine}
    (ht : Treats h args skip negate e t o e') : Verdict h args skip negate e t o e' := by
  cases ht with
  | plain htaken =>
    cases t with
    | custom label run =>
      cases htaken with
      | custom hrun =>
        exact
          { skipped := fun name => by simp
            unknown := fun name => by simp [Names]
            applied := fun name hname => by
              obtain rfl : customLabel = name := by injection hname
              exact .inl ⟨label, run, rfl, rfl, rfl, hrun⟩ }
    | named n => exact verdict_of_names (fun other => by simp [Names, eq_comm]) rfl htaken
  | skipped hopposite =>
    cases t with
    | custom label run =>
      exact
        { skipped := fun name => by simp [eq_comm]
          unknown := fun name => by simp [Names]
          applied := fun name hname => by cases hname }
    | named n =>
      have hnone : (e.negative h n).1 = none := congrArg Prod.fst hopposite
      exact
        { skipped := fun name => by simp [eq_comm, hnone]
          unknown := fun name => by simp [Names, hnone]
          applied := fun name hname => by cases hname }
  | opposite hopposite htaken =>
    cases t with
    | custom label run => cases hopposite
    | named n =>
      have hsome := congrArg Prod.fst hopposite
      refine verdict_of_names (fun other => ?_) (by rw [hopposite]; rfl) htaken
      change (e.negative h n).1 = _ at hsome
      simp [Names, hsome, eq_comm]

/-! ## Tokens that are not invoked -/

/-- The engines are the same but for the log, the answer and the numbers of searches. -/
def Like (x y : Engine) : Prop := Mirrors false [] [] x y

theorem Like.refl (e : Engine) : e.Like e :=
  { agenda := ⟨e.agenda, by simp, by simp⟩
    hosts := rfl
    queries := rfl
    sessions := rfl
    current := rfl
    pinned := rfl
    log := fun _ => rfl
    answer := fun _ => rfl }

section Like

variable {x y : Engine} {tasks : List Task} {t : Token Step} {o : Outcome} {f : Engine}

theorem Like.symm (hxy : x.Like y) : y.Like x :=
  { agenda := by
      obtain ⟨top, hx, hy⟩ := hxy.agenda
      exact ⟨top, hy, hx⟩
    hosts := hxy.hosts.symm
    queries := hxy.queries.symm
    sessions := hxy.sessions.symm
    current := hxy.current.symm
    pinned := hxy.pinned.symm
    log := fun he => by cases he
    answer := fun he => by cases he }

/-- What is logged on one side only does not matter. -/
theorem Like.logged (hxy : x.Like y) (events : List Event) : x.Like (y.record events) :=
  { hxy with log := fun he => by cases he }

/-- Storing opposites in the resolver of a host makes no difference. -/
theorem like_updateHost {i : HostId} {f : Host → Host}
    (hf : ∀ s, x.host? i = some s → (f s).upTo false = s.upTo false) :
    x.Like (x.updateHost i f) :=
  { Like.refl x with
    hosts := by
      refine List.ext_getElem? fun j => ?_
      simp only [updateHost, List.getElem?_map, List.getElem?_modify]
      by_cases hij : i = j
      · subst hij
        cases hs : x.hosts[i]? with
        | none => rfl
        | some s => simp [hf s hs]
      · cases x.hosts[j]? <;> simp [hij] }

theorem Like.agenda_eq (hxy : x.Like y) : y.agenda = x.agenda := by
  obtain ⟨top, hx, hy⟩ := hxy.agenda
  rw [hx, hy]

/-- Engines that are alike have the same actions. -/
theorem Like.action?_eq (hxy : x.Like y) (i : HostId) (name : String) :
    y.action? i name = x.action? i name := by
  rw [action?, action?]
  obtain ⟨hx, hy⟩ | ⟨s, s', hx, hy, hs⟩ := hxy.host?_cases i
  · rw [hx, hy]
  · rw [hx, hy, Option.bind_some, Option.bind_some, hs.actions]

/-- Engines that are alike have the same forms. -/
theorem Like.form_eq (hxy : x.Like y) (i : HostId) :
    (y.host? i).map Host.form = (x.host? i).map Host.form := by
  obtain ⟨hx, hy⟩ | ⟨s, s', hx, hy, hs⟩ := hxy.host?_cases i
  · rw [hx, hy]
  · rw [hx, hy, Option.map_some, Option.map_some, hs.form]

/-- Engines that are alike find the same opposites and stay alike. -/
theorem Like.opposite (hxy : x.Like y) (i : HostId) (t : Token Step) :
    (y.opposite i t).1 = (x.opposite i t).1 ∧ Like (x.opposite i t).2 (y.opposite i t).2 := by
  cases t with
  | custom label run => exact ⟨rfl, hxy.record _⟩
  | named name => exact hxy.negative i name

/-- Tasks are completed in the same way from engines that are alike. -/
theorem Completes.like (hxy : x.Like y) (hdone : Completes h x tasks f) :
    ∃ g, Completes h y tasks g ∧ f.Like g := by
  have hagenda := hxy.agenda_eq
  have hmirrors := hxy.schedule [.hold [h] []]
  have hkeep : KeepSame (x.schedule [.hold [h] []]).agenda (y.schedule [.hold [h] []]).agenda := by
    simp only [schedule, hagenda]
    exact .refl _
  obtain ⟨g, hg, hsame⟩ := Performs.mirror hdone hkeep { hmirrors with agenda := ⟨[], rfl, rfl⟩ }
  let g' : Engine := { g with agenda := y.agenda }
  have hg' : g = g'.schedule [.hold [h] []] := by
    have hend := hg.agenda
    cases g
    simp_all [g', schedule]
  refine ⟨g', by rw [Completes, ← hg']; exact hg, ?_⟩
  exact
    { hsame with
      agenda := ⟨x.agenda, by simp [hdone.agenda], by simp [g', hagenda]⟩
      log := fun he => by cases he
      answer := fun he => by cases he }

/-- Tokens are invoked in the same way from engines that are alike. -/
theorem Invokes.like (hxy : x.Like y) (ht : Invokes h args skip x t o f) :
    ∃ g, Invokes h args skip y t o g ∧ f.Like g := by
  cases ht with
  | custom hrun =>
    obtain ⟨g, hg, hlike⟩ := hrun.like (hxy.record _)
    exact ⟨g, .custom hg, hlike⟩
  | known hname hrun =>
    obtain ⟨g, hg, hlike⟩ := hrun.like (hxy.record _)
    exact ⟨g, .known ((hxy.action?_eq h _).trans hname) hg, hlike⟩
  | unknown hname =>
    refine ⟨_, .unknown ((hxy.action?_eq h _).trans hname), hxy.recordAs fun he => by cases he⟩

/-- Tokens are treated in the same way from engines that are alike. -/
theorem Treats.like (hxy : x.Like y) (ht : Treats h args skip negate x t o f) :
    ∃ g, Treats h args skip negate y t o g ∧ f.Like g := by
  cases ht with
  | plain htaken =>
    obtain ⟨g, hg, hlike⟩ := htaken.like hxy
    exact ⟨g, .plain hg, hlike⟩
  | skipped hopposite =>
    obtain ⟨hfound, hlike⟩ := hxy.opposite h t
    rcases hy : y.opposite h t with ⟨found, y₁⟩
    rw [hopposite, hy] at hfound hlike
    obtain rfl : found = none := hfound
    exact ⟨y₁, .skipped hy, hlike⟩
  | opposite hopposite htaken =>
    obtain ⟨hfound, hlike⟩ := hxy.opposite h t
    rcases hy : y.opposite h t with ⟨found, y₁⟩
    rw [hopposite, hy] at hfound hlike
    obtain ⟨g, hg, hlike'⟩ := htaken.like hlike
    obtain rfl : found = some _ := hfound
    exact ⟨g, .opposite hy hg, hlike'⟩

/-- Tokens are treated in the same way in engines that are alike. -/
theorem TreatsAll.like {ts : List (Token Step)} {os : List Outcome} (hxy : x.Like y)
    (hts : TreatsAll h args skip negate x ts os f) :
    ∃ g, TreatsAll h args skip negate y ts os g ∧ f.Like g := by
  induction hts generalizing y with
  | nil => exact ⟨y, .nil, hxy⟩
  | cons hfirst hrest ih =>
    obtain ⟨y₁, hfirst', hlike⟩ := hfirst.like hxy
    obtain ⟨g, hrest', hlike'⟩ := ih hlike
    exact ⟨g, .cons hfirst' hrest', hlike'⟩

end Like

/-- Only a search that finds an action makes a pair known. -/
theorem like_opposite {t : Token Step}
    (hunknown : ∀ name, (e.opposite h t).1 = some name → e.action? h name = none) :
    e.Like (e.opposite h t).2 := by
  cases t with
  | custom label run => exact (Like.refl e).logged _
  | named n =>
    unfold opposite negative at hunknown ⊢
    cases hhost : e.host? h with
    | none => exact .refl e
    | some host =>
      simp only [hhost, action?, Option.bind_some] at hunknown
      have hresolver := host.resolver.upTo_resolve fun name hname =>
        Registry.contains_of_get?_eq_none (hunknown name hname)
      refine Like.logged (like_updateHost fun s hs => ?_) _
      obtain rfl : host = s := Option.some.inj (hhost.symm.trans hs)
      simp only [Host.upTo, hresolver]

/-- A token that is not invoked leaves the engine as it is, but for the log and the number of
searches. -/
theorem Treats.like_of_not_applied {t : Token Step} {o : Outcome} {e' : Engine}
    (ht : Treats h args skip negate e t o e') (ho : ∀ name, o ≠ .applied name) : e.Like e' := by
  cases ht with
  | plain htaken =>
    cases htaken with
    | custom hrun => exact absurd rfl (ho _)
    | known hname hrun => exact absurd rfl (ho _)
    | unknown hname => exact (Like.refl e).logged _
  | skipped hopposite =>
    have hlike := like_opposite (e := e) (h := h) (t := t) fun name hname => by
      rw [hopposite] at hname
      cases hname
    rwa [hopposite] at hlike
  | opposite hopposite htaken =>
    cases htaken with
    | known hname hrun => exact absurd rfl (ho _)
    | unknown hname =>
      have haction := e.action?_opposite h h t
      rw [hopposite] at haction
      have hlike := like_opposite (e := e) (h := h) (t := t) fun name hname' => by
        rw [hopposite] at hname'
        obtain ⟨⟩ := hname'
        rw [← haction, hname]
      rw [hopposite] at hlike
      exact hlike.logged _

/-! ## Negated lists -/

/-- The tokens are taken in turn: the opposite of each is looked up at its moment and applied as a
list of its own that is not negated. -/
inductive ByOpposites (h : HostId) (args : Args) (skip : Bool) :
    Engine → List (Token Step) → Report → Engine → Prop
  | nil {e : Engine} : ByOpposites h args skip e [] {} e
  | skipped {e e₁ e' : Engine} {t : Token Step} {ts : List (Token Step)} {r : Report}
      (hopposite : e.opposite h t = (none, e₁)) (hrest : ByOpposites h args skip e₁ ts r e') :
      ByOpposites h args skip e (t :: ts) ((Report.of [.skipped t.label]).append r) e'
  | named {e e₁ e₂ e' : Engine} {t : Token Step} {ts : List (Token Step)} {name : String}
      {s r : Report} (hopposite : e.opposite h t = (some name, e₁))
      (happlies : e₁.Applies h [.named name] args false skip s e₂)
      (hrest : ByOpposites h args skip e₂ ts r e') :
      ByOpposites h args skip e (t :: ts) (s.append r) e'

/-- A list of one token is reported with the one outcome of that token. -/
theorem applies_singleton (hhost : e.host? h = some host) {t : Token Step} {r : Report}
    {e' : Engine} : e.Applies h [t] args negate skip r e' ↔
      ∃ o, Treats h args skip negate e t o e' ∧ r = .of [o] := by
  rw [applies_iff hhost]
  constructor
  · rintro ⟨_, ⟨⟩ | ⟨hfirst, ⟨⟩⟩, rfl⟩
    exact ⟨_, hfirst, rfl⟩
  · rintro ⟨o, ht, rfl⟩
    exact ⟨[o], .cons ht .nil, rfl⟩

/-- Applying the opposites one by one is treating the tokens of the negated list. -/
theorem byOpposites_iff (hhost : e.host? h = some host) {ts : List (Token Step)} {r : Report}
    {e' : Engine} : ByOpposites h args skip e ts r e' ↔
      ∃ os, TreatsAll h args skip true e ts os e' ∧ r = .of os := by
  have hhost₁ : ∀ {e e₁ : Engine} {t : Token Step} {found : Option String} {host : Host},
      e.host? h = some host → e.opposite h t = (found, e₁) → ∃ s, e₁.host? h = some s :=
    fun {e e₁ t found host} hhost hopposite => by
      obtain ⟨resolver, hs⟩ := host?_opposite hhost t
      rw [hopposite] at hs
      exact ⟨_, hs⟩
  constructor
  · intro hts
    induction hts generalizing host with
    | nil => exact ⟨[], .nil, rfl⟩
    | skipped hopposite hrest ih =>
      obtain ⟨s, hs⟩ := hhost₁ hhost hopposite
      obtain ⟨os, hos, rfl⟩ := ih hs
      exact ⟨_, .cons (.skipped hopposite) hos, (Report.of_cons _ os).symm⟩
    | named hopposite happlies hrest ih =>
      obtain ⟨s, hs⟩ := hhost₁ hhost hopposite
      obtain ⟨o, ht, rfl⟩ := (applies_singleton hs).1 happlies
      obtain ⟨s', hs'⟩ := ht.exists_host hs
      obtain ⟨os, hos, rfl⟩ := ih hs'
      exact ⟨_, .cons (.opposite hopposite (treats_plain.1 ht)) hos, (Report.of_cons o os).symm⟩
  · rintro ⟨os, hts, rfl⟩
    induction ts generalizing e host os with
    | nil =>
      cases hts
      exact .nil
    | cons t ts ih =>
      rcases hts with _ | ⟨hfirst, hrest⟩
      obtain ⟨s, hs⟩ := hfirst.exists_host hhost
      have hrest' := ih hs _ hrest
      rw [Report.of_cons]
      cases hfirst with
      | skipped hopposite => exact .skipped hopposite hrest'
      | opposite hopposite htaken =>
        obtain ⟨s₁, hs₁⟩ := hhost₁ hhost hopposite
        exact .named hopposite ((applies_singleton hs₁).2 ⟨_, .plain htaken, rfl⟩) hrest'

/-! ## Accounts -/

/-- What applying a list of tokens to a host does, and what it reports. -/
structure AccountsForTokens (e : Engine) (h : HostId) (args : Args) (negate skip : Bool) :
    Prop where
  /-- The call comes to its end just if the tokens do, one after the other, and reports what became
  of each. -/
  applies : ∀ ts r e', e.Applies h ts args negate skip r e' ↔
    ∃ os, TreatsAll h args skip negate e ts os e' ∧ r = .of os
  size : ∀ ts r e', e.Applies h ts args negate skip r e' → r.size = ts.length
  append : ∀ ts ts' r e', e.Applies h (ts ++ ts') args negate skip r e' ↔
    ∃ r₁ f r₂, e.Applies h ts args negate skip r₁ f ∧ f.Applies h ts' args negate skip r₂ e' ∧
      r = r₁.append r₂
  verdict : ∀ ts os e₁ t o e₂, TreatsAll h args skip negate e ts os e₁ →
    Treats h args skip negate e₁ t o e₂ → Verdict h args skip negate e₁ t o e₂
  /-- A token that is not invoked leaves the forms as they are, and the tokens behind it are treated
  as they would be without it. -/
  inert : ∀ ts os e₁ t o e₂, TreatsAll h args skip negate e ts os e₁ →
    Treats h args skip negate e₁ t o e₂ → (∀ name, o ≠ .applied name) →
    (∀ i, (e₂.host? i).map Host.form = (e₁.host? i).map Host.form) ∧
    ∀ ts' os',
      (∀ f, TreatsAll h args skip negate e₁ ts' os' f →
        ∃ g, TreatsAll h args skip negate e₂ ts' os' g ∧ f.Like g) ∧
      ∀ g, TreatsAll h args skip negate e₂ ts' os' g →
        ∃ f, TreatsAll h args skip negate e₁ ts' os' f ∧ f.Like g
  negated : ∀ ts r e', e.Applies h ts args true skip r e' ↔ ByOpposites h args skip e ts r e'

/-- A list of tokens is accounted for token by token, whatever runs in between. -/
theorem accountsForTokens (hhost : e.host? h = some host) (args : Args) (negate skip : Bool) :
    e.AccountsForTokens h args negate skip where
  applies _ _ _ := applies_iff hhost
  size ts r e' happlies := by
    obtain ⟨os, hts, rfl⟩ := (applies_iff hhost).1 happlies
    rw [Report.size_of, hts.length_eq]
  append _ _ _ _ := applies_append hhost
  verdict _ _ _ _ _ _ _ ht := ht.verdict
  inert ts os e₁ t o e₂ _ ht ho := by
    have hlike := ht.like_of_not_applied ho
    refine ⟨hlike.form_eq, fun ts' os' => ⟨fun f hf => hf.like hlike, fun g hg => ?_⟩⟩
    obtain ⟨f, hf, hgf⟩ := hg.like hlike.symm
    exact ⟨f, hf, hgf.symm⟩
  negated _ _ _ := (applies_iff hhost).trans (byOpposites_iff hhost).symm

end Rules

/-- A door whose closing rings, tries a name that nobody has, and opens the door again. -/
def door : Host where
  config := {}
  form := Form.empty "door"
  actions := ((({} : Registry Action).insert "open" (.scripted { name := "open" })).insert "ring"
    (.scripted { name := "ring" })).insert "close" (.scripted
      { name := "close"
        run := [.dispatch [.named "ring", .named "knock"] [] false false,
          .dispatch [.named "close"] [] true false] })
  resolver := ({ rules := {} } : Resolver).register "open" "close"
  evaluations := {}

/-- A hall with the door. -/
def hall : Engine where
  hosts := [door]
  sessions := [{ host := some 0 }]

/-- The reports among the answers in the log, and that of the last step. -/
def reports (e : Engine) : List Report :=
  (e.log.toList.filterMap fun
    | .ran _ (.report r) => some r
    | _ => none) ++
    match e.answer with
    | .report r => [r]
    | _ => []

/-- The opposite of opening is to close, which applies two lists on its own. Neither the script nor
the ring has an opposite. -/
theorem accountsForTokens_hall : hall.host? 0 = some door ∧
    hall.AccountsForTokens 0 [] true false ∧
    ((hall.schedule [.dispatch 0 [.named "open", .custom "knock" [], .named "ring"] [] true false {}
      true]).run 40).reports = [⟨["ring"], [], ["knock"]⟩, ⟨["open"], [], []⟩,
        ⟨["close"], [customLabel, "ring"], []⟩] :=
  ⟨rfl, accountsForTokens rfl [] true false, by decide +kernel⟩

end Engine

end FormRules
