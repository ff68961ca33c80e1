import FormRules.Proofs.Deliveries
import FormRules.Proofs.Roots

/-!
# What attachments dispatch

An attachment is a callback with a list of actions. It lands on the root of the rule's tree, from
however deep a bracket (`callbacks_attach`), and stays there; all that ever changes about it is the
mark that a list which runs only once is spent, set as it is called on a result that holds, before
its actions run (`callback_run`). Direct actions attach to the branch that was chosen last for
their tree (`mode_run`).

`attachment_dispatches` puts this together, for any run and any deliveries, nested ones included.
Two things stand between an attachment and its actions: a form that is no longer in use
is sent nothing, and the branch can be chosen at a query of the tree, besides its junctions
(`not_dispatched_and_chosen_at_query`).
-/

namespace FormRules

/-- A callback after it was called with a state: a list of actions that runs only once is spent from
its first call with a result that holds. -/
def Callback.called (state : Bool) : Callback → Callback
  | .attached h .once actions args spent => .attached h .once actions args (spent || state)
  | c => c

/-- The attachment that an operation on a junction makes: its polarity, actions and arguments. A
direct action attaches to the branch that its tree is on. -/
def ChainOp.attachment? (failing : Bool) :
    ChainOp Step → Option (Polarity × List (Token Step) × Args)
  | .attach p actions args => some (p, actions, args)
  | .action actions args => some (if failing then .failing else .holding, actions, args)
  | _ => none

/-- Whether the opposites are meant, if an attachment dispatches anything when it is called with a
state; `done` if it was called with a result that holds before. -/
def Polarity.due? (done state : Bool) : Polarity → Option Bool
  | holding => some !state
  | failing => some state
  | onlyHolding => if state then some false else none
  | onlyFailing => if state then none else some false
  | once => if done then none else some !state

namespace Engine

/-! ## Calls -/

/-- The engine after a call has left its mark on the callback, before anything follows from it. -/
def marked (e : Engine) (q : QueryId) (i : Nat) (state : Bool) : Engine :=
  e.updateQuery q fun s => { s with callbacks := s.callbacks.modify i (Callback.called state) }

section Calls

variable {e : Engine} {q : QueryId} {i : Nat}

/-- A call leaves a mark on the callback that is called, and on no other. -/
theorem callbacks_marked (e : Engine) (q : QueryId) (i : Nat) (state : Bool) (r : QueryId) :
    (e.marked q i state).callbacks r =
      if q = r then (e.callbacks r).modify i (Callback.called state) else e.callbacks r := by
  rw [callbacks, callbacks, marked, query?_updateQuery]
  split
  · cases e.query? r with
    | none => simp
    | some s => rfl
  · rfl

/-- What a change does to other queries does not matter. -/
theorem updateQuery_congr {f g : Query → Query} (h : ∀ s, e.query? q = some s → f s = g s) :
    e.updateQuery q f = e.updateQuery q g := by
  have hqueries : e.queries.modify q f = e.queries.modify q g := by
    refine List.ext_getElem? fun r => ?_
    rw [List.getElem?_modify, List.getElem?_modify]
    by_cases hr : q = r
    · subst hr
      cases hs : e.queries[q]? with
      | none => rfl
      | some s => simp [h s hs]
    · simp [hr]
  rw [updateQuery, updateQuery, hqueries]

theorem updateQuery_eq_self {f : Query → Query} (h : ∀ s, e.query? q = some s → f s = s) :
    e.updateQuery q f = e := by
  rw [updateQuery_congr (g := id) h, updateQuery, List.modify_id]

theorem modify_called {cs : List Callback} {c : Callback} {state : Bool} (hc : cs[i]? = some c) :
    cs.modify i (Callback.called state) = cs.set i (c.called state) := by
  refine List.ext_getElem? fun j => ?_
  rw [List.getElem?_modify, List.getElem?_set']
  by_cases hij : i = j
  · subst hij
    simp [hc]
  · simp [hij]

/-- A mark that changes nothing about the callback changes nothing. -/
theorem marked_eq_self {state : Bool}
    (h : ∀ c, (e.callbacks q)[i]? = some c → c.called state = c) : e.marked q i state = e := by
  refine updateQuery_eq_self fun s hs => ?_
  have hcallbacks : e.callbacks q = s.callbacks := by simp [callbacks, hs]
  rw [hcallbacks] at h
  cases hc : s.callbacks[i]? with
  | none => rw [List.modify_eq_self (List.getElem?_eq_none_iff.1 hc)]
  | some c =>
    obtain ⟨hi, hget⟩ := List.getElem?_eq_some_iff.1 hc
    rw [modify_called hc, h c hc, ← hget, List.set_getElem_self]

/-- What the call of an action list does: nothing if the list is spent; else it leaves its mark, and
dispatches the list if the polarity says so and the form is in use. The mark is that of a list that
runs only once, on a result that holds. -/
theorem deliver_attached {h : HostId} {p : Polarity} {actions : List (Token Step)} {args : Args}
    {spent : Bool} (hc : (e.callbacks q)[i]? = some (.attached h p actions args spent))
    (state skip : Bool) : e.deliver q i state skip =
      if spent then e else (e.marked q i state).schedule
        (((p.negates? state).filter fun _ => e.hostInUse h).toList.map fun negate =>
          .dispatch h actions args negate skip {} false) := by
  have hc' : ((e.query? q).getD {}).callbacks[i]? = some (.attached h p actions args spent) := hc
  unfold deliver
  simp only [hc']
  cases spent with
  | true => rfl
  | false =>
    have hmark : (if p = .once ∧ state = true then
        e.updateQuery q fun s =>
          { s with callbacks := s.callbacks.set i (.attached h p actions args true) }
        else e) = e.marked q i state := by
      split
      · next honce =>
        obtain ⟨rfl, rfl⟩ := honce
        refine updateQuery_congr fun s hs => ?_
        have hcs : s.callbacks[i]? = some (.attached h .once actions args false) := by
          simpa [callbacks, hs] using hc
        rw [modify_called hcs]
        rfl
      · next honce =>
        refine (marked_eq_self fun c hc'' => ?_).symm
        obtain rfl := Option.some.inj (hc.symm.trans hc'')
        cases p with
        | once => simp [Callback.called, show state = false by simpa using honce]
        | _ => rfl
    simp only [Bool.false_eq_true, if_false]
    rw [hmark]
    cases hp : p.negates? state with
    | none => rfl
    | some negate =>
      have hinUse : (e.marked q i state).hostInUse h = e.hostInUse h := rfl
      simp only [hinUse]
      cases e.hostInUse h <;> rfl

/-- A call chooses no branch, and changes callbacks by its mark only. -/
theorem leads_deliver (h : e.IsSound) (q : QueryId) (i : Nat) (state skip : Bool) :
    (e.marked q i state).Leads none (e.deliver q i state skip) := by
  have hmarked : (e.marked q i state).Leads none (e.marked q i state) :=
    .refl (h.updateQuery q fun _ => rfl)
  cases hc : (e.callbacks q)[i]? with
  | none =>
    have hdeliver : e.deliver q i state skip = e := by
      have hc' : ((e.query? q).getD {}).callbacks[i]? = none := hc
      simp only [deliver, hc']
    rw [hdeliver, marked_eq_self (by simp [hc])]
    exact .refl h
  | some c =>
    cases c with
    | script label run =>
      have hdeliver : e.deliver q i state skip =
          (e.record [.call label state skip]).schedule (Task.ofScript run) := by
        have hc' : ((e.query? q).getD {}).callbacks[i]? = some (.script label run) := hc
        simp only [deliver, hc']
      rw [hdeliver, marked_eq_self (by simp [hc, Callback.called])]
      exact ((Leads.refl h).record _).schedule (Task.built?_ofScript run)
    | attached host p actions args spent =>
      rw [deliver_attached hc]
      split
      · next hspent =>
        rw [marked_eq_self]
        · exact .refl h
        · intro c hc'
          obtain rfl := Option.some.inj (hc.symm.trans hc')
          cases p <;> simp [Callback.called, hspent]
      · refine hmarked.schedule fun t ht => ?_
        obtain ⟨negate, -, rfl⟩ := List.mem_map.1 ht
        rfl

end Calls

/-! ## Runs -/

/-- The query whose tree the next task chooses the branch of, and the branch. -/
def nextChoice? (e : Engine) : Option (QueryId × Bool) := e.agenda.head?.bind e.taken.choice?

section Runs

variable {e : Engine}

/-- What the next task does to queries: it is a call, which goes on from its mark, or it goes on from
the engine as it is. -/
theorem leads_step (h : e.IsSound) {t : Task} {ts : List Task} (ha : e.agenda = t :: ts) :
    (∃ q i state skip, t = .deliver q i state skip ∧
      (e.taken.marked q i state).Leads none e.step) ∨
    ((∀ q i state skip, t ≠ .deliver q i state skip) ∧ e.taken.Leads e.nextChoice? e.step) := by
  have hchoice : e.nextChoice? = e.taken.choice? t := by simp [nextChoice?, ha]
  rw [step_of_agenda ha, hchoice]
  by_cases ht : ∃ q i state skip, t = .deliver q i state skip
  · obtain ⟨q, i, state, skip, rfl⟩ := ht
    exact Or.inl ⟨q, i, state, skip, rfl, leads_deliver h.taken q i state skip⟩
  · have ht' : ∀ q i state skip, t ≠ .deliver q i state skip :=
      fun q i state skip heq => ht ⟨q, i, state, skip, heq⟩
    exact Or.inr ⟨ht', .perform h.taken (h.built t (by simp [ha])) ht'⟩

/-- Names and brackets stay in order with every task. -/
theorem IsSound.step (h : e.IsSound) : e.step.IsSound := by
  cases ha : e.agenda with
  | nil => rwa [Engine.step, ha]
  | cons t ts =>
    rcases leads_step h ha with ⟨q, i, state, skip, -, hleads⟩ | ⟨-, hleads⟩
    · exact hleads.sound
    · exact hleads.sound

/-- Names and brackets stay in order along a run. -/
theorem IsSound.run (h : e.IsSound) (n : Nat) : (e.run n).IsSound := by
  induction n with
  | zero => exact h
  | succ n ih => exact run_succ' n e ▸ ih.step

/-- A branch is chosen by a task that is a choice for its tree, and by no other. -/
theorem mode_step (h : e.IsSound) (r : QueryId) :
    e.step.mode r = branch e.nextChoice? r (e.mode r) := by
  cases ha : e.agenda with
  | nil => rw [step, nextChoice?, ha]; rfl
  | cons t ts =>
    rcases leads_step h ha with ⟨q, i, state, skip, rfl, hleads⟩ | ⟨-, hleads⟩
    · have hnone : e.nextChoice? = none := by simp [nextChoice?, ha, choice?]
      rw [hleads.mode, hnone]
      exact mode_updateQuery e.taken q r fun _ => rfl
    · exact hleads.mode r

/-- The branches that the first `n` tasks choose for the tree of `r`, in order. -/
def choices (r : QueryId) : Nat → Engine → List Bool
  | 0, _ => []
  | n + 1, e => ((e.nextChoice?.filter fun c => c.1 = r).map Prod.snd).toList ++ choices r n e.step

/-- The branch of a tree is the one that was chosen last. -/
theorem mode_run (h : e.IsSound) (r : QueryId) (n : Nat) :
    (e.run n).mode r = ((choices r n e).getLast?).getD (e.mode r) := by
  induction n generalizing e with
  | zero => rfl
  | succ n ih =>
    rw [run_succ, ih h.step, mode_step h, choices]
    cases hc : e.nextChoice? with
    | none => rfl
    | some c =>
      by_cases hr : c.1 = r
      · simp [branch, Option.filter, hr, List.getLast?_cons]
      · simp [branch, Option.filter, hr]

/-- A callback keeps its place. A call with a state is the only thing that may change it. -/
theorem callback_step (h : e.IsSound) {r : QueryId} {i : Nat} {c : Callback}
    (hc : (e.callbacks r)[i]? = some c) :
    (e.step.callbacks r)[i]? = some (((e.delivers r i).map c.called).getD c) := by
  have hprefix : ∀ {e₁ : Engine} {c'}, e₁.callbacks r <+: e.step.callbacks r →
      (e₁.callbacks r)[i]? = some c' → (e.step.callbacks r)[i]? = some c' := by
    rintro e₁ c' ⟨more, hmore⟩ hc'
    rw [← hmore, List.getElem?_append_left (List.getElem?_eq_some_iff.1 hc').1, hc']
  cases ha : e.agenda with
  | nil => simpa [step, ha, delivers] using hc
  | cons t ts =>
    rcases leads_step h ha with ⟨q, j, state, skip, rfl, hleads⟩ | ⟨ht, hleads⟩
    · refine hprefix (hleads.callbacks r) ?_
      rw [callbacks_marked]
      by_cases hcall : q = r ∧ j = i
      · obtain ⟨rfl, rfl⟩ := hcall
        have hc' : (e.taken.callbacks q)[j]? = some c := hc
        simp [delivers, ha, hc']
      · have hsame : e.delivers r i = none := by simp [delivers, ha, hcall]
        rw [hsame]
        split
        · next hq =>
          have hj : j ≠ i := fun hj => hcall ⟨hq, hj⟩
          rw [List.getElem?_modify_ne _ _ hj]
          exact hc
        · exact hc
    · have hnone : e.delivers r i = none := by
        unfold delivers
        rw [ha]
        cases t with
        | deliver q j state skip => exact (ht q j state skip rfl).elim
        | _ => rfl
      rw [hnone]
      exact hprefix (hleads.callbacks r) hc

/-- The mark of an attachment tells whether it runs only once and was called on a result that
holds. -/
theorem callback_run (h : e.IsSound) {r : QueryId} {i : Nat} {host : HostId} {p : Polarity}
    {actions : List (Token Step)} {args : Args}
    (hc : (e.callbacks r)[i]? = some (.attached host p actions args false)) (n : Nat) :
    ∃ spent, ((e.run n).callbacks r)[i]? = some (.attached host p actions args spent) ∧
      (spent = true ↔ p = .once ∧ ∃ k < n, (e.run k).delivers r i = some true) := by
  induction n with
  | zero => exact ⟨false, hc, by simp⟩
  | succ n ih =>
    obtain ⟨spent, hspent, hmark⟩ := ih
    have hstep := callback_step (h.run n) hspent
    rw [← run_succ'] at hstep
    have hsplit : (∃ k < n + 1, (e.run k).delivers r i = some true) ↔
        (∃ k < n, (e.run k).delivers r i = some true) ∨ (e.run n).delivers r i = some true := by
      simp only [Nat.lt_succ_iff_lt_or_eq, or_and_right, exists_or, exists_eq_left]
    rw [hsplit]
    cases hcall : (e.run n).delivers r i with
    | none =>
      rw [hcall] at hstep
      exact ⟨spent, hstep, by simpa using hmark⟩
    | some state =>
      rw [hcall] at hstep
      cases p with
      | once => exact ⟨spent || state, hstep, by simp [hmark]⟩
      | _ => exact ⟨spent, hstep, by simpa using hmark⟩

end Runs

/-! ## Attaching -/

section Attaching

variable {e : Engine}

/-- Whether a query is in use depends on the conditions of queries, and on nothing else about them. -/
theorem queryInUse_updateQuery (e : Engine) (i : QueryId) {f : Query → Query}
    (hf : ∀ s, (f s).clauses = s.clauses) (q : QueryId) :
    (e.updateQuery i f).queryInUse q = e.queryInUse q := by
  have hmentions : ∀ s p, (f s).mentions p = s.mentions p := fun s p => by
    simp only [Query.mentions, hf]
  have hany : ∀ (e : Engine) (p : QueryId) (use : QueryId → Bool), (e.queries.zipIdx.any fun x =>
      x.1.mentions p && use x.2) = true ↔
        ∃ r s, e.query? r = some s ∧ s.mentions p = true ∧ use r = true := by
    intro e p use
    simp only [List.any_eq_true, Prod.exists, List.mk_mem_zipIdx_iff_getElem?, Bool.and_eq_true]
    exact exists_comm
  have hwithin : ∀ n p, (e.updateQuery i f).inUseWithin n p = e.inUseWithin n p := by
    intro n
    induction n with
    | zero => exact fun _ => rfl
    | succ n ih =>
      intro p
      have hsame : ∀ r, (∃ s, (e.updateQuery i f).query? r = some s ∧ s.mentions p = true) ↔
          ∃ s, e.query? r = some s ∧ s.mentions p = true := fun r => by
        rw [query?_updateQuery]
        split
        · cases e.query? r <;> simp [hmentions]
        · exact Iff.rfl
      refine congrArg (e.holdsDirectly p || ·) (Bool.eq_iff_iff.2 ?_)
      rw [hany, hany]
      refine exists_congr fun r => ?_
      simp only [← and_assoc, exists_and_right, hsame, ih]
  have hlength : (e.updateQuery i f).queries.length = e.queries.length := by simp [updateQuery]
  rw [queryInUse, queryInUse, hlength, hwithin]

/-- A change that keeps parents and conditions keeps roots. -/
theorem root_updateQuery (e : Engine) (i : QueryId) {f : Query → Query}
    (hf : ∀ s, (f s).parent = s.parent ∧ (f s).clauses = s.clauses) (q : QueryId) :
    (e.updateQuery i f).root q = e.root q := by
  have hparent : ∀ p, (e.updateQuery i f).parent? p = e.parent? p := fun p => by
    have hinUse : (e.updateQuery i f).queryInUse = e.queryInUse :=
      funext fun q => queryInUse_updateQuery e i (fun s => (hf s).2) q
    have hbind : ((e.updateQuery i f).query? p).bind Query.parent =
        (e.query? p).bind Query.parent := by
      rw [query?_updateQuery]
      split
      · cases e.query? p with
        | none => rfl
        | some s => exact (hf s).1
      · rfl
    rw [parent?, parent?, hinUse, hbind]
  have hwithin : ∀ n p, (e.updateQuery i f).rootWithin n p = e.rootWithin n p := by
    intro n
    induction n with
    | zero => exact fun _ => rfl
    | succ n ih =>
      intro p
      simp only [rootWithin, hparent, ih]
  have hlength : (e.updateQuery i f).queries.length = e.queries.length := by simp [updateQuery]
  rw [root, root, hlength, hwithin]

/-- An attachment lands on the root of the tree, with which the rule goes on. A branch that is
chosen first changes neither the tree nor its callbacks. -/
theorem chainOp_attachment (h : e.IsSound) {f : Facet} (hf : f.query < e.queries.length)
    (hkind : f.kind = .junction) {op : ChainOp Step} {p : Polarity} {actions : List (Token Step)}
    {args : Args} (hop : op.attachment? (e.mode (e.root f.query)) = some (p, actions, args)) :
    ∃ e' task, e.chainOp f op = (e', ⟨.junction, f.host, e.root f.query⟩, [task]) ∧
      e'.agenda = e.agenda ∧ e'.callbacks (e.root f.query) =
        e.callbacks (e.root f.query) ++ [.attached f.host p actions args false] := by
  have hactions : e.chainOp f op = e.attachActions f p actions args := by
    cases op with
    | attach p' actions' args' =>
      obtain ⟨rfl, rfl, rfl⟩ : p' = p ∧ actions' = actions ∧ args' = args := by
        simpa [ChainOp.attachment?] using hop
      simp only [chainOp, hkind, junctionOp]
    | action actions' args' =>
      obtain ⟨rfl, rfl, rfl⟩ : (if e.mode (e.root f.query) then Polarity.failing else .holding) = p ∧
          actions' = actions ∧ args' = args := by
        simpa [ChainOp.attachment?] using hop
      simp only [chainOp, hkind, junctionOp]
      rfl
    | _ => simp [ChainOp.attachment?] at hop
  have hfirst : ∃ e₁ : Engine, e.attachActions f p actions args =
        e₁.attach f (.attached f.host p actions args false) ∧
      (∀ q, e₁.root q = e.root q) ∧ (∀ q, e₁.callbacks q = e.callbacks q) ∧
      e₁.queries.length = e.queries.length ∧ e₁.agenda = e.agenda := by
    have hchosen : ∀ failing, (∀ q, (e.setDirect f.query failing).root q = e.root q) ∧
        (∀ q, (e.setDirect f.query failing).callbacks q = e.callbacks q) ∧
        (e.setDirect f.query failing).queries.length = e.queries.length := by
      have hsame : ∀ failing (s : Query), { s with negateDirect := failing }.parent = s.parent ∧
          { s with negateDirect := failing }.clauses = s.clauses := fun _ _ => ⟨rfl, rfl⟩
      refine fun failing => ⟨root_updateQuery e _ (hsame failing), fun q => ?_,
        by simp [setDirect, updateQuery]⟩
      rw [callbacks, callbacks, setDirect, query?_updateQuery]
      split
      · cases e.query? q <;> rfl
      · rfl
    cases p with
    | holding => exact ⟨e.setDirect f.query false, rfl, (hchosen false).1, (hchosen false).2.1,
        (hchosen false).2.2, rfl⟩
    | failing => exact ⟨e.setDirect f.query true, rfl, (hchosen true).1, (hchosen true).2.1,
        (hchosen true).2.2, rfl⟩
    | _ => exact ⟨e, rfl, fun _ => rfl, fun _ => rfl, rfl, rfl⟩
  obtain ⟨e₁, hattach, hroot, hcallbacks, hlength, hagenda⟩ := hfirst
  have hadded := attaches_addCallback e₁ (e₁.root f.query) (.attached f.host p actions args false)
  have hlast : e₁.root (e₁.root f.query) = e.root f.query := by rw [hroot, hroot, h.root_root]
  obtain ⟨s, hs⟩ : ∃ s, e₁.query? (e.root f.query) = some s :=
    ⟨_, List.getElem?_eq_getElem (hlength ▸ (h.root_le f.query).trans_lt hf)⟩
  refine ⟨(e₁.addCallback (e₁.root f.query) (.attached f.host p actions args false)).2,
    (e₁.addCallback (e₁.root f.query) (.attached f.host p actions args false)).1, ?_,
    hadded.agenda.trans hagenda, ?_⟩
  · rw [hactions, hattach, attach, hroot]
  · rw [← hcallbacks, callbacks, callbacks, query?_addCallback, if_pos hlast, hs]
    rfl

end Attaching

/-! ## Dispatching -/

/-- In a run from an engine without queries, let an operation of a chain on a junction make an
attachment; a direct action attaches as an attachment that holds or fails does, whichever branch was
chosen last for the tree, and to the branch that holds if none was. Then the attachment is a new
callback of the root of the tree. Whenever it is called after that, on whatever state and flag,
nested calls included, it does nothing but to dispatch its actions, negated as its polarity says and
with the flag as it is, or nothing if that says so, or if the form is no longer in use. -/
theorem attachment_dispatches {e : Engine} (hsound : e.IsSound) (hnew : e.queries = []) {n : Nat}
    {f : Facet} {op : ChainOp Step} {ops : List (ChainOp Step)} {name : Option String}
    {ts : List Task} (ha : (e.run n).agenda = .chain f (op :: ops) name :: ts)
    (hkind : f.kind = .junction) {r : QueryId} (hr : (e.run n).taken.root f.query = r)
    {p : Polarity} {actions : List (Token Step)} {args : Args}
    (hop : op.attachment? ((choices r n e).getLast?.getD false) = some (p, actions, args)) :
    (e.run n).taken.isRoot r = true ∧
    (e.run (n + 1)).callbacks r =
      (e.run n).callbacks r ++ [.attached f.host p actions args false] ∧
    (∃ first, (e.run (n + 1)).agenda = first :: .chain ⟨.junction, f.host, r⟩ ops name :: ts) ∧
    ∀ m state skip ts', n < m →
      (e.run m).agenda = .deliver r ((e.run n).callbacks r).length state skip :: ts' →
      ∀ done, (done = true ↔ ∃ k, n < k ∧ k < m ∧
        (e.run k).delivers r ((e.run n).callbacks r).length = some true) →
      (e.run (m + 1)).agenda =
        ((p.due? done state).filter fun _ => (e.run m).taken.hostInUse f.host).toList.map
          (fun negate => .dispatch f.host actions args negate skip {} false) ++ ts' ∧
      (e.run (m + 1)).hosts = (e.run m).hosts ∧ (e.run (m + 1)).log = (e.run m).log := by
  have hsound' := hsound.run n
  have hf : f.query < (e.run n).taken.queries.length :=
    hsound'.built (.chain f (op :: ops) name) (by simp [ha]) _ rfl
  have hmode : (e.run n).taken.mode r = (choices r n e).getLast?.getD false := by
    have hinitial : e.mode r = false := by simp [mode, queryAt, query?, hnew]
    rw [← hinitial]
    exact mode_run hsound r n
  subst hr
  obtain ⟨e', first, hchain, hagenda, hcallbacks⟩ :=
    chainOp_attachment hsound'.taken hf hkind (by rw [hmode]; exact hop)
  have hstep : e.run (n + 1) = e'.schedule ([first] ++
      [.chain ⟨.junction, f.host, (e.run n).taken.root f.query⟩ ops name]) := by
    rw [run_succ', step_of_agenda ha]
    simp only [perform, chain, hchain]
  refine ⟨hsound'.taken.isRoot_root _, by rw [hstep]; exact hcallbacks, ⟨first, ?_⟩, ?_⟩
  · rw [hstep, ← agenda_taken ha, ← hagenda]
    rfl
  · intro m state skip ts' hm hdeliver done hdone
    generalize hr : (e.run n).taken.root f.query = r at *
    generalize hi : ((e.run n).callbacks r).length = i at *
    have hplaced : ((e.run (n + 1)).callbacks r)[i]? =
        some (.attached f.host p actions args false) := by
      rw [hstep]
      change (e'.callbacks r)[i]? = _
      rw [hcallbacks, ← hi]
      exact List.getElem?_concat_length
    obtain ⟨spent, hspent, hmark⟩ := callback_run (hsound.run (n + 1)) hplaced (m - (n + 1))
    have hmoments : ∀ k, ((e.run (n + 1)).run k) = e.run (n + 1 + k) := fun k => (run_add _ _ e).symm
    simp only [hmoments, show n + 1 + (m - (n + 1)) = m by omega] at hspent hmark
    have hcall : e.run (m + 1) = if spent then (e.run m).taken else
        ((e.run m).taken.marked r i state).schedule
          (((p.negates? state).filter fun _ => (e.run m).taken.hostInUse f.host).toList.map
            fun negate => .dispatch f.host actions args negate skip {} false) := by
      rw [run_succ', step_of_agenda hdeliver]
      exact deliver_attached (e := (e.run m).taken) hspent state skip
    have hbefore : (∃ k < m - (n + 1), (e.run (n + 1 + k)).delivers r i = some true) ↔
        done = true := by
      rw [hdone]
      constructor
      · rintro ⟨k, hk, hdelivers⟩
        exact ⟨n + 1 + k, by omega, by omega, hdelivers⟩
      · rintro ⟨k, hnk, hkm, hdelivers⟩
        refine ⟨k - (n + 1), by omega, ?_⟩
        rwa [show n + 1 + (k - (n + 1)) = k by omega]
    rw [hbefore] at hmark
    have hdue : p.due? done state = if spent then none else p.negates? state := by
      obtain rfl : spent = (decide (p = .once) && done) := Bool.eq_iff_iff.2 (by simpa using hmark)
      cases p <;> cases done <;> rfl
    rw [hcall, hdue]
    cases spent with
    | true => exact ⟨agenda_taken hdeliver, rfl, rfl⟩
    | false => exact ⟨congrArg _ (agenda_taken hdeliver), rfl, rfl⟩

/-- An engine that has no queries, and names for none, is sound. -/
theorem isSound_of_new {e : Engine} (hqueries : e.queries = [])
    (hknown : ∀ s ∈ e.sessions, s.known = []) (hbuilt : ∀ t ∈ e.agenda, t.built? = none) :
    e.IsSound :=
  ⟨fun hs => by simp [query?, hqueries] at hs, fun s hs q hq => by simp [hknown s hs] at hq,
    fun t ht q hq => by simp [hbuilt t ht] at hq⟩

/-- Before anything runs, names and brackets are in order. -/
theorem isSound_running (config : Config Action) (form : Form) (steps : List Step) :
    (running config form false steps).IsSound :=
  isSound_of_new rfl (fun s hs => by rw [List.mem_singleton.1 hs]; rfl)
    (Task.built?_ofScript steps)

/-- Whether the next task is the first operation on a rule at this facet, as the test says. -/
def nextOp (e : Engine) (f : Facet) (test : ChainOp Step → Bool) : Bool :=
  match e.agenda with
  | .chain g (op :: _) _ :: _ => g == f && test op
  | _ => false

/-- An operation that is next is the first of its chain. -/
theorem of_nextOp {e : Engine} {f : Facet} {test : ChainOp Step → Bool}
    (h : e.nextOp f test = true) :
    ∃ op ops name ts, e.agenda = .chain f (op :: ops) name :: ts ∧ test op = true := by
  unfold nextOp at h
  split at h
  · next ha =>
    obtain ⟨hf, htest⟩ := Bool.and_eq_true_iff.1 h
    exact ⟨_, _, _, _, eq_of_beq hf ▸ ha, htest⟩
  · simp at h

/-- Whether the operation is a direct action that dims the lamp. -/
def isDim : ChainOp Step → Bool
  | .action [.named name] [.text field] => name == "dim" && field == "lamp"
  | _ => false

theorem eq_of_isDim {op : ChainOp Step} (h : isDim op = true) :
    op = .action [.named "dim"] [.text "lamp"] := by
  unfold isDim at h
  split at h
  · obtain ⟨hname, hfield⟩ := Bool.and_eq_true_iff.1 h
    rw [eq_of_beq hname, eq_of_beq hfield]
  · simp at h

/-- Whether the task delivers a first result. -/
def skips : Task → Bool
  | .deliver _ _ _ skip => skip
  | _ => false

/-- A lamp whose rule chooses the failing branch in a bracket, for a direct action there. -/
def deskLamp : Engine :=
  running {} (Form.empty "hall") false [
    .rule [.when (.node (.flag "evening" true false)) none, .and, .openBracket,
      .when (.node (.flag "home" true false)) none, .direct true,
      .action [.named "dim"] [.text "lamp"]] none none,
    .setFlag "home" true, .setFlag "evening" true]

/-- The direct action lands on the root, on the failing branch, and when the rule comes to hold its
opposite is dispatched. -/
theorem attachment_dispatches_lamp :
    (deskLamp.run 7).callbacks 0 = [.attached 0 .failing [.named "dim"] [.text "lamp"] false] ∧
    ∃ ts, (deskLamp.run 28).agenda =
      .dispatch 0 [.named "dim"] [.text "lamp"] true false {} false :: ts := by
  have hrun : (deskLamp.run 6).nextOp ⟨.junction, 0, 1⟩ isDim = true ∧
      (deskLamp.run 6).taken.root 1 = 0 ∧ choices 0 6 deskLamp = [true] ∧
      ((deskLamp.run 6).callbacks 0).length = 0 ∧ (deskLamp.run 27).taken.hostInUse 0 = true ∧
      (deskLamp.run 27).delivers 0 0 = some true ∧
      (deskLamp.run 27).agenda.head?.any skips = false ∧
      ∀ k < 27, (deskLamp.run k).delivers 0 0 ≠ some true := by
    decide +kernel
  obtain ⟨hnext, hroot, hchoices, hnone, hinUse, hdelivers, hskip, hfirst⟩ := hrun
  obtain ⟨op, ops, name, ts, ha, htest⟩ := of_nextOp hnext
  obtain rfl := eq_of_isDim htest
  obtain ⟨skip, ts', hdeliver⟩ := delivers_eq_some hdelivers
  obtain rfl : skip = false := by simpa [hdeliver, skips] using hskip
  have hcallbacks := List.length_eq_zero_iff.1 hnone
  obtain ⟨-, hattached, -, hdispatches⟩ := attachment_dispatches (e := deskLamp)
    (isSound_running {} _ _) rfl ha rfl hroot (by rw [hchoices]; rfl)
  rw [hcallbacks] at hattached hdispatches
  have hdispatch := hdispatches 27 true false ts' (by omega) hdeliver false
    (by simpa using fun k _ hk => hfirst k hk)
  refine ⟨hattached, ts', ?_⟩
  rw [hdispatch.1, hinUse]
  rfl

/-! ## What stands in between -/

/-- Whether the callback is a list for the holding branch that has not been used up. -/
def isHolding : Callback → Bool
  | .attached _ p _ _ spent => p == .holding && !spent
  | .script .. => false

/-- A callback for results that hold has a list of actions. -/
theorem exists_of_isHolding {c : Callback} (h : isHolding c = true) :
    ∃ i actions args, c = .attached i .holding actions args false := by
  unfold isHolding at h
  split at h
  · obtain ⟨hp, hspent⟩ := Bool.and_eq_true_iff.1 h
    rw [Bool.not_eq_true'] at hspent
    exact ⟨_, _, _, by rw [eq_of_beq hp, hspent]⟩
  · simp at h

/-- Whether the task applies a list. -/
def isDispatch : Task → Bool
  | .dispatch .. => true
  | _ => false

/-- Whether the operation is a direct action. -/
def isDirect : ChainOp Step → Bool
  | .action .. => true
  | _ => false

/-- Whether the task is an operation that chooses a branch. -/
def chooses : Task → Bool
  | .chain _ (op :: _) _ => op.chooses?.isSome
  | _ => false

/-- A shop that closes before its rule comes to hold. -/
def closing : Engine :=
  running {} (Form.empty "shop") false [
    .rule [.when (.node (.flag "open" true false)) none,
      .attach .holding [.custom "greet" []] []] (some "greeting") none,
    .dropHost, .setFlag "open" true]

/-- A shop whose rule is put on the failing branch by its query. -/
def turned : Engine :=
  running .builtin (Form.empty "shop") false [
    .rule [.when (.node (.flag "open" true false)) none] (some "greeting") none,
    .query "greeting" (.negate true),
    .rule [.action [.named "hide"] [.text "note"]] none (some "greeting")]

/-- Being called is not enough for an attachment to dispatch, and the branch of direct actions is
not always the one chosen by the calls on junctions. -/
theorem not_dispatched_and_chosen_at_query :
    (¬ ∀ (e : Engine) (r : QueryId) (i m : Nat) (h : HostId) (actions : List (Token Step))
      (args : Args) (state skip : Bool) (ts : List Task), e.IsSound → e.queries = [] →
      ((e.run m).callbacks r)[i]? = some (.attached h .holding actions args false) →
      (e.run m).agenda = .deliver r i state skip :: ts →
      (e.run (m + 1)).agenda = .dispatch h actions args (!state) skip {} false :: ts) ∧
    ¬ ∀ (e : Engine) (n : Nat) (f : Facet) (actions : List (Token Step)) (args : Args)
      (ops : List (ChainOp Step)) (name : Option String) (ts : List Task), e.IsSound →
      e.queries = [] →
      (∀ k < n, ∀ f' op ops' name' ts', (e.run k).agenda = .chain f' (op :: ops') name' :: ts' →
        op.chooses? = none) →
      (e.run n).agenda = .chain f (.action actions args :: ops) name :: ts → f.kind = .junction →
      (e.run (n + 1)).callbacks ((e.run n).taken.root f.query) =
        (e.run n).callbacks ((e.run n).taken.root f.query) ++
          [.attached f.host .holding actions args false] := by
  refine ⟨fun h => ?_, fun h => ?_⟩
  · have hrun : (closing.run 18).delivers 0 0 = some true ∧
        ((closing.run 18).callbacks 0).head?.any isHolding = true ∧
        (closing.run 19).agenda.head?.any isDispatch = false := by
      decide +kernel
    obtain ⟨hdelivers, hattached, hquiet⟩ := hrun
    obtain ⟨skip, ts, hdeliver⟩ := delivers_eq_some hdelivers
    obtain ⟨c, hc, hcond⟩ := (Option.any_eq_true _ _).1 hattached
    obtain ⟨i, actions, args, rfl⟩ := exists_of_isHolding hcond
    have hdispatch := h closing 0 0 18 i actions args true skip ts (isSound_running {} _ _) rfl
      (by rw [← hc, List.head?_eq_getElem?]) hdeliver
    simp [hdispatch, isDispatch] at hquiet
  · have hrun : (turned.run 10).nextOp ⟨.junction, 0, 0⟩ isDirect = true ∧
        (∀ k < 10, (turned.run k).agenda.head?.any chooses = false) ∧
        (turned.run 10).taken.root 0 = 0 ∧
        ((turned.run 11).callbacks 0).getLast?.any isHolding = false := by
      decide +kernel
    obtain ⟨hnext, hunchosen, hroot, hfailing⟩ := hrun
    obtain ⟨op, ops, name, ts, ha, htest⟩ := of_nextOp hnext
    unfold isDirect at htest
    split at htest
    · have hholding := h turned 10 _ _ _ ops name ts (isSound_running .builtin _ _) rfl
        (fun k hk f' op ops' name' ts' hk' => by simpa [hk', chooses] using hunchosen k hk) ha rfl
      simp only [hroot] at hholding
      rw [hholding, List.getLast?_concat] at hfailing
      simp [isHolding] at hfailing
    · simp at htest

end Engine

end FormRules
