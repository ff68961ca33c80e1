import FormRules.Proofs.Rounds

/-!
# What a task does to the rounds of a query

Three kinds of task concern the rounds at a query: a trigger may start one, a round calls the next of
its callbacks, and whoever adds a callback has it run by a trigger or by itself. `Engine.Beat` lists
these; all other tasks are quiet, which means that they leave the callbacks alone and that the tasks
they put on the agenda are neither rounds nor calls (`Engine.Quiet`). `Engine.beat` says that there
is nothing else, for any task of any script.
-/

namespace FormRules

/-- Whether the task is a round of callbacks or the call of one. -/
def Task.isRound : Task → Bool
  | .round .. | .deliver .. => true
  | _ => false

/-- Whether the task is a round of callbacks of `r` or the call of one. -/
def Task.isRoundOf (r : QueryId) : Task → Bool
  | .round q .. | .deliver q .. => q == r
  | _ => false

theorem Task.isRoundOf_of_isRound {t : Task} (h : t.isRound = false) (r : QueryId) :
    t.isRoundOf r = false := by
  cases t with
  | round => simp [isRound] at h
  | deliver => simp [isRound] at h
  | _ => rfl

/-- Scripts have neither rounds nor calls before their steps are performed. -/
theorem Task.isRound_ofScript (run : List Step) : ∀ t ∈ Task.ofScript run, t.isRound = false := by
  intro t ht
  obtain ⟨s, -, ht⟩ := List.mem_flatMap.1 ht
  simp only [List.mem_cons, List.not_mem_nil, or_false] at ht
  rcases ht with rfl | rfl <;> rfl

namespace Engine

/-! ## Quiet changes -/

/-- `e'` is `e` with the same callbacks, and with more to do that is neither a round nor a call. -/
structure Quiet (e e' : Engine) : Prop where
  agenda : ∃ news, e'.agenda = news ++ e.agenda ∧ ∀ t ∈ news, t.isRound = false
  callbacks : ∀ q, (e'.callbacks q).length = (e.callbacks q).length

namespace Quiet

variable {e e' e'' : Engine}

theorem refl (e : Engine) : e.Quiet e := ⟨⟨[], rfl, by simp⟩, fun _ => rfl⟩

/-- Two quiet changes in a row are one. -/
theorem trans (h : e.Quiet e') (h' : e'.Quiet e'') : e.Quiet e'' := by
  obtain ⟨news, ha, hnews⟩ := h.agenda
  obtain ⟨news', ha', hnews'⟩ := h'.agenda
  refine ⟨⟨news' ++ news, by rw [ha', ha, List.append_assoc], fun t ht => ?_⟩,
    fun q => (h'.callbacks q).trans (h.callbacks q)⟩
  exact (List.mem_append.1 ht).elim (hnews' t) (hnews t)

/-- Whether a change is quiet depends on the agenda and the queries. -/
theorem of_eq (h : e.Quiet e') (ha : e''.agenda = e'.agenda) (hq : e''.queries = e'.queries) :
    e.Quiet e'' := by
  refine ⟨ha ▸ h.agenda, fun q => ?_⟩
  rw [← h.callbacks q, Engine.callbacks, Engine.callbacks, query?, query?, hq]

theorem record (h : e.Quiet e') (events : List Event) : e.Quiet (e'.record events) :=
  h.of_eq rfl rfl

theorem note (h : e.Quiet e') (d : Diagnostic) : e.Quiet (e'.note d) := h.of_eq rfl rfl

theorem reply (h : e.Quiet e') (a : Answer) : e.Quiet (e'.reply a) := h.of_eq rfl rfl

theorem observe {α : Type} (h : e.Quiet e') (x : Traced α) : e.Quiet (e'.observe x).2 :=
  h.of_eq rfl rfl

theorem updateSession (h : e.Quiet e') (f : Session → Session) : e.Quiet (e'.updateSession f) :=
  h.of_eq rfl rfl

theorem updateFlag (h : e.Quiet e') (ref : FlagRef) (f : Flag → Flag) :
    e.Quiet (e'.updateFlag ref f) := h.of_eq rfl rfl

theorem nameQuery (h : e.Quiet e') (name : String) (q : QueryId) : e.Quiet (e'.nameQuery name q) :=
  h.of_eq rfl rfl

theorem keepRule (h : e.Quiet e') (f : Facet) (name : String) : e.Quiet (e'.keepRule f name) :=
  h.of_eq rfl rfl

theorem updateHost (h : e.Quiet e') (i : HostId) (f : Host → Host) : e.Quiet (e'.updateHost i f) :=
  h.of_eq rfl rfl

/-- Tasks that are neither rounds nor calls may be scheduled. -/
theorem schedule (h : e.Quiet e') {tasks : List Task} (ht : ∀ t ∈ tasks, t.isRound = false) :
    e.Quiet (e'.schedule tasks) :=
  h.trans ⟨⟨tasks, rfl, ht⟩, fun _ => rfl⟩

/-- A change that leaves the number of callbacks is quiet. -/
theorem updateQuery (h : e.Quiet e') (i : QueryId) {f : Query → Query}
    (hf : ∀ s, (f s).callbacks.length = s.callbacks.length) : e.Quiet (e'.updateQuery i f) := by
  refine h.trans ⟨⟨[], rfl, by simp⟩, fun q => ?_⟩
  rw [Engine.callbacks, Engine.callbacks, query?_updateQuery]
  split
  · cases e'.query? q <;> simp [hf]
  · rfl

/-- A new query has no callbacks. -/
theorem addQuery (h : e.Quiet e') (parent : Option QueryId) : e.Quiet (e'.addQuery parent).2 := by
  refine h.trans ⟨⟨[], rfl, by simp⟩, fun q => ?_⟩
  rw [Engine.callbacks, Engine.callbacks, query?_addQuery]
  split
  · next hq => simp [query?, hq]
  · rfl

/-! ### Queries and hosts -/

/-- A name may get a new query. -/
theorem named (h : e.Quiet e') (name : String) : e.Quiet (e'.named name).2 := by
  unfold Engine.named
  split
  · exact h
  · exact (h.addQuery none).nameQuery _ _

theorem nodeLeaf (h : e.Quiet e') (n : NodeSpec) : e.Quiet (e'.nodeLeaf n).2 := by
  cases n with
  | query name => exact h.named name
  | flag name observable logged => exact h

/-- Conditions are no callbacks. -/
theorem addCondition (h : e.Quiet e') (q : QueryId) (leaf : Leaf) (observable : Bool) :
    e.Quiet (e'.addCondition q leaf observable) := by
  have hq : e.Quiet (e'.updateQuery q (·.addLeaf leaf)) := h.updateQuery q fun _ => rfl
  unfold Engine.addCondition observeLeaf
  split
  · split
    · exact hq.updateFlag _ _
    · exact hq
  · exact hq

theorem addClause (h : e.Quiet e') (q : QueryId) : e.Quiet (e'.addClause q) :=
  h.updateQuery q fun _ => rfl

theorem setPaused (h : e.Quiet e') (q : QueryId) (paused : Bool) :
    e.Quiet (e'.setPaused q paused) :=
  h.updateQuery _ fun _ => rfl

/-- The branch of direct actions is chosen for callbacks to come. -/
theorem setDirect (h : e.Quiet e') (q : QueryId) (failing : Bool) :
    e.Quiet (e'.setDirect q failing) :=
  h.updateQuery _ fun _ => rfl

/-- Subscriptions schedule nothing. -/
theorem subscribe (h : e.Quiet e') (i : HostId) (spec : Spec) (listener : Listener) :
    e.Quiet (e'.subscribe i spec listener) := by
  unfold Engine.subscribe
  split
  · exact h
  · exact (h.observe _).updateHost _ _

theorem listenTo (h : e.Quiet e') (f : Facet) (spec : Spec) : e.Quiet (e'.listenTo f spec) := by
  unfold Engine.listenTo
  split
  · exact h
  · exact h.subscribe _ _ _

theorem negative (h : e.Quiet e') (i : HostId) (name : String) :
    e.Quiet (e'.negative i name).2 := by
  unfold Engine.negative
  split
  · exact h
  · exact (h.updateHost _ _).record _

theorem startRule (h : e.Quiet e') (i : HostId) (source : Option String) :
    e.Quiet (e'.startRule i source).2 := by
  unfold Engine.startRule
  split
  · exact h
  · exact (h.addQuery none).updateHost _ _

/-! ### Callbacks, actions and changes -/

/-- A call schedules a script or a list of actions, and no further call. -/
theorem deliver (h : e.Quiet e') (q : QueryId) (i : Nat) (state skip : Bool) :
    e.Quiet (e'.deliver q i state skip) := by
  unfold Engine.deliver
  split
  · exact h
  · exact (h.record _).schedule (Task.isRound_ofScript _)
  · next host p actions args spent heq =>
    have hmark : e.Quiet (if p = .once ∧ state then
        e'.updateQuery q fun s =>
          { s with callbacks := s.callbacks.set i (.attached host p actions args true) }
        else e') := by
      split
      · exact h.updateQuery q fun s => List.length_set
      · exact h
    dsimp only
    generalize (if p = .once ∧ state then _ else e') = marked at hmark ⊢
    split
    · exact h
    · split
      · split
        · exact hmark.schedule (by simp [Task.isRound])
        · exact hmark
      · exact hmark

/-- An action is scheduled, and no call. -/
theorem invoke (h : e.Quiet e') (i : HostId) (name : String) (args : Args) (skip : Bool)
    (report : Report) {next : Report → Task} (hnext : ∀ report, (next report).isRound = false) :
    e.Quiet (e'.invoke i name args skip report next) := by
  unfold Engine.invoke
  split
  · exact h
  · split
    · exact (h.note _).schedule (List.forall_mem_cons.2 ⟨rfl, by simp [hnext]⟩)
    · exact (h.note _).schedule (by simp [hnext])

/-- A token schedules a script or an action, and no call. -/
theorem dispatch (h : e.Quiet e') (i : HostId) (args : Args) (negate skip : Bool) (report : Report)
    {next : Report → Task} (hnext : ∀ report, (next report).isRound = false) (t : Token Step) :
    e.Quiet (e'.dispatch i args negate skip report next t) := by
  unfold Engine.dispatch
  split
  · split
    · exact (h.note _).schedule (by simp [hnext])
    · refine (h.record _).schedule fun t ht => ?_
      rcases List.mem_append.1 ht with ht | ht
      · exact Task.isRound_ofScript _ t ht
      · rw [List.mem_singleton.1 ht, hnext]
  · next name =>
    split
    · have hn := h.negative i name
      split
      · next heq => rw [heq] at hn; exact hn.invoke _ _ _ _ _ hnext
      · next heq => rw [heq] at hn; exact hn.schedule (by simp [hnext])
    · exact h.invoke _ _ _ _ _ hnext

/-- The tasks of an action are neither rounds nor calls. -/
theorem isRound_actionTasks (classes : ClassNames) (i : HostId) (args : Args) (skip : Bool)
    (action : Action) : ∀ t ∈ actionTasks classes i args skip action, t.isRound = false := by
  cases action with
  | builtin a =>
    intro t ht
    obtain ⟨op, -, rfl⟩ := List.mem_map.1 ht
    cases op <;> rfl
  | scripted a =>
    intro t ht
    rcases List.mem_cons.1 ht with rfl | ht
    · rfl
    · rcases List.mem_append.1 ht with ht | ht
      · split at ht
        · rw [List.mem_singleton.1 ht]
          rfl
        · simp at ht
      · exact Task.isRound_ofScript _ t ht

/-- An effect schedules a notification. -/
theorem applyEffect (h : e.Quiet e') (i : HostId) (field : String) (effect : Effect) (s : Switch)
    (skip answers : Bool) : e.Quiet (e'.applyEffect i field effect s skip answers) := by
  unfold Engine.applyEffect
  split
  · exact h
  · next host hhost =>
    have hform := (h.observe (host.fields field false)).updateHost i fun x =>
      { x with form := (host.form.apply (host.fields field false).value effect s).1 }
    dsimp only
    refine schedule ?_ (by cases answers <;> simp [Task.isRound])
    split
    · exact hform.record _
    · exact hform

/-- A write schedules a notification. -/
theorem write (h : e.Quiet e') (i : HostId) (field : String) (v : Value) (automatic : Bool) :
    e.Quiet (e'.write i field v automatic) := by
  unfold Engine.write
  split
  · exact h
  · next host hhost =>
    have hform := (h.observe (host.fields field false)).updateHost i fun x =>
      { x with form := (host.form.write (host.fields field false).value v).1 }
    dsimp only
    refine schedule ?_ (by simp [Task.isRound])
    split
    · exact hform.record _
    · exact hform

/-- A notification schedules who hears of it. -/
theorem notify (h : e.Quiet e') (i : HostId) (changed : List Handle) (automatic : Bool) :
    e.Quiet (e'.notify i changed automatic) := by
  unfold Engine.notify
  split
  · refine (note ?_ _).schedule (by simp [Task.isRound])
    split
    · exact h
    · exact h.updateHost _ _
  · exact h

/-- A listener schedules a trigger or a script. -/
theorem inform (h : e.Quiet e') (field : String) (v : Option Value) (automatic : Bool)
    (l : Listener) : e.Quiet (e'.inform field v automatic l) := by
  cases l with
  | query q => exact h.schedule (by simp [Task.isRound])
  | script label run => exact (h.record _).schedule (Task.isRound_ofScript _)

/-! ### Conditions and steps -/

theorem conditionLeaf (h : e.Quiet e') (i : HostId) (field : String) (spec : Spec)
    (c : ConditionSpec) : e.Quiet (e'.conditionLeaf i field spec c).2 := by
  cases c with
  | value v => exact h
  | test t label => exact h
  | node n => exact h.nodeLeaf n

/-- An operation that takes conditions schedules nothing. -/
theorem conditionOp (h : e.Quiet e') (f : Facet) (op : ChainOp Step) :
    e.Quiet (e'.conditionOp f op).1 := by
  unfold Engine.conditionOp
  split
  · next c field =>
    have hleaf := (h.observe (Spec.read (field.getD formAlias))).conditionLeaf f.host
      (field.getD formAlias) (Spec.read (field.getD formAlias)).value c
    exact (hleaf.addCondition _ _ _).listenTo _ _
  · exact (h.observe _).listenTo _ _
  · exact ((h.addQuery (some f.query)).addCondition f.query (.query e'.queries.length)
      false).listenTo f .form
  · exact h

/-- A step about the host schedules chains, writes, effects, lists and triggers, but no call. -/
theorem hostStep (h : e.Quiet e') (i : HostId) (host : Host) (s : Step) :
    e.Quiet (e'.hostStep i host s) := by
  unfold Engine.hostStep
  split
  · exact (h.startRule i _).schedule (by simp [Task.isRound])
  · exact h.schedule (by simp [Task.isRound])
  · exact h.schedule (by simp [Task.isRound])
  · exact ((h.observe _).subscribe _ _ _).reply _
  · exact h.schedule (by simp [Task.isRound])
  · exact (h.observe _).reply _
  · exact (h.observe _).reply _
  · exact (h.observe _).reply _
  · exact (h.observe _).reply _
  · exact (h.observe _).reply _
  · exact h.schedule (by simp [Task.isRound])
  · refine (h.note _).schedule fun t ht => ?_
    rcases List.mem_append.1 ht with ht | ht
    · obtain ⟨q, -, rfl⟩ := List.mem_map.1 ht
      rfl
    · rw [List.mem_singleton.1 ht]
      rfl
  · exact h.reply _
  · exact (h.negative i _).reply _
  · exact h.reply _
  · exact h.reply _
  · exact h.reply _
  · exact (h.updateHost _ _).reply _
  · exact (h.updateHost _ _).reply _
  · split
    · exact (h.updateHost _ _).reply _
    · exact h.reply _
  · exact h.reply _
  · exact h
  · exact h
  · exact h
  · exact h

end Quiet

/-! ## Adding a callback -/

/-- Evaluation reads nothing of queries but their clauses. -/
theorem evaluate_updateQuery (e : Engine) (i : QueryId) (f : Query → Query)
    (hf : ∀ s, (f s).clauses = s.clauses) (q : QueryId) :
    (e.updateQuery i f).evaluate q = e.evaluate q := by
  have hwithin : ∀ n, (e.updateQuery i f).evaluateWithin n = e.evaluateWithin n := by
    intro n
    induction n with
    | zero => rfl
    | succ n ih =>
      funext q
      simp only [evaluateWithin, query?_updateQuery, ih]
      by_cases hi : i = q
      · rw [if_pos hi]
        cases e.query? q with
        | none => rfl
        | some s =>
          simp only [Option.map_some, hf]
          rfl
      · rw [if_neg hi]
        rfl
  have hlength : (e.updateQuery i f).queries.length = e.queries.length := by simp [updateQuery]
  rw [evaluate, evaluate, hlength, hwithin]

/-- Keeping a query in use keeps no form in use, so conditions do not depend on it. -/
theorem evaluate_hold (e : Engine) (qs : List QueryId) (q : QueryId) :
    (e.schedule [.hold [] qs]).evaluate q = e.evaluate q := by
  have hinUse : ∀ h, (e.schedule [.hold [] qs]).hostInUse h = e.hostInUse h := fun h => by
    simp [hostInUse, schedule, Task.hosts]
  have hleaf : (e.schedule [.hold [] qs]).evaluateLeaf = e.evaluateLeaf := by
    funext query leaf
    cases leaf <;> simp only [evaluateLeaf, askTest, hinUse] <;> rfl
  have hwithin : ∀ n, (e.schedule [.hold [] qs]).evaluateWithin n = e.evaluateWithin n := by
    intro n
    induction n with
    | zero => rfl
    | succ n ih =>
      funext q
      simp only [evaluateWithin, ih, hleaf]
      rfl
  exact congrFun (hwithin _) q

/-- `e'` is `e` after a callback was added to the root query `r`, and `first` is the task that runs
it: a trigger of the rule, if that is its first, and else the call of this callback with the present
result. -/
structure Attaches (e e' : Engine) (r : QueryId) (first : Task) : Prop where
  agenda : e'.agenda = e.agenda
  callbacks : ∀ q, (e'.callbacks q).length =
    (e.callbacks q).length + if q = r ∧ (e.query? r).isSome then 1 else 0
  last : e'.last? r = e.last? r
  first : (first = .trigger r ∧ e.last? r = none) ∨
    (first = .deliver r (e.callbacks r).length (e.evaluate r).value true ∧ e.last? r ≠ none)

/-- Adding a callback is attaching it at the root of the tree. -/
theorem attaches_addCallback (e : Engine) (q : QueryId) (c : Callback) :
    e.Attaches (e.addCallback q c).2 (e.root q) (e.addCallback q c).1 := by
  have hquery := fun p => query?_addCallback e q p c
  refine ⟨?_, fun p => ?_, ?_, ?_⟩
  · unfold addCallback
    dsimp only
    split <;> rfl
  · rw [callbacks, hquery, callbacks]
    by_cases hp : e.root q = p
    · subst hp
      cases e.query? (e.root q) <;> simp
    · simp [hp, Ne.symm hp]
  · rw [last?, queryAt, hquery, if_pos rfl, last?, queryAt]
    cases e.query? (e.root q) <;> rfl
  · unfold addCallback
    dsimp only
    cases hlast : ((e.query? (e.root q)).getD {}).last with
    | none => exact Or.inl ⟨rfl, hlast⟩
    | some b =>
      refine Or.inr ⟨?_, by simp [last?, queryAt, hlast]⟩
      have hevaluate := evaluate_updateQuery e (e.root q)
        (fun s : Query => { s with callbacks := s.callbacks ++ [c] }) (fun _ => rfl) (e.root q)
      simp only [Option.isNone_some, Bool.false_eq_true, if_false, observe, hevaluate]
      rfl

/-- The branch of direct actions has no part in it. -/
theorem Attaches.of_setDirect {e e' : Engine} {q r : QueryId} {failing : Bool} {first : Task}
    (h : (e.setDirect q failing).Attaches e' r first) : e.Attaches e' r first := by
  have hquery : ∀ p, (e.setDirect q failing).query? p =
      if e.root q = p then (e.query? p).map fun s => { s with negateDirect := failing }
      else e.query? p := fun p => query?_updateQuery e _ p _
  have hquiet : e.Quiet (e.setDirect q failing) := (Quiet.refl e).setDirect q failing
  have hlast : (e.setDirect q failing).last? r = e.last? r := by
    rw [last?, queryAt, hquery]
    split
    · cases hr : e.query? r <;> simp [last?, queryAt, hr]
    · rfl
  have hsome : ((e.setDirect q failing).query? r).isSome = (e.query? r).isSome := by
    rw [hquery]
    split <;> simp
  have hevaluate : (e.setDirect q failing).evaluate r = e.evaluate r :=
    evaluate_updateQuery e (e.root q) (fun s => { s with negateDirect := failing }) (fun _ => rfl) r
  refine ⟨h.agenda, fun p => ?_, h.last.trans hlast, ?_⟩
  · rw [h.callbacks, hquiet.callbacks, hsome]
  · have hfirst := h.first
    rwa [hlast, hquiet.callbacks, hevaluate] at hfirst

/-- An operation of a chain is quiet or adds a callback. -/
theorem chainOp_cases (e : Engine) (f : Facet) (op : ChainOp Step) :
    (e.Quiet (e.chainOp f op).1 ∧ ∀ t ∈ (e.chainOp f op).2.2, t.isRound = false) ∨
    ∃ r first, (e.chainOp f op).2.2 = [first] ∧ e.Attaches (e.chainOp f op).1 r first := by
  have h := Quiet.refl e
  have hattach : ∀ p actions args, ∃ r first, (e.attachActions f p actions args).2.2 = [first] ∧
      e.Attaches (e.attachActions f p actions args).1 r first := by
    intro p actions args
    have hadd := fun e' : Engine => attaches_addCallback e' (e'.root f.query)
      (.attached f.host p actions args false)
    cases p with
    | holding => exact ⟨_, _, rfl, (hadd (e.setDirect f.query false)).of_setDirect⟩
    | failing => exact ⟨_, _, rfl, (hadd (e.setDirect f.query true)).of_setDirect⟩
    | onlyHolding => exact ⟨_, _, rfl, hadd e⟩
    | onlyFailing => exact ⟨_, _, rfl, hadd e⟩
    | once => exact ⟨_, _, rfl, hadd e⟩
  unfold chainOp
  split
  · exact Or.inl ⟨h.keepRule _ _, by simp⟩
  · exact Or.inl ⟨h, by simp [Task.isRound]⟩
  · exact Or.inl ⟨h.setPaused _ _, by simp⟩
  · exact Or.inl ⟨h.setPaused _ _, by simp⟩
  · split
    · exact Or.inl ⟨h.conditionOp _ _, by simp⟩
    · unfold junctionOp
      split
      · exact Or.inl ⟨(h.observe _).record _, by simp⟩
      · exact Or.inl ⟨h, by simp⟩
      · exact Or.inl ⟨h.addClause _, by simp⟩
      · exact Or.inl ⟨h, by simp⟩
      · exact Or.inr ⟨_, _, rfl, attaches_addCallback _ _ _⟩
      · exact Or.inr (hattach _ _ _)
      · exact Or.inl ⟨h.setDirect _ _, by simp⟩
      · exact Or.inr (hattach _ _ _)
      · exact Or.inl ⟨h, by simp⟩

/-! ## What a task does -/

/-- What the next task does to the rounds at `r`. -/
inductive Beat (e : Engine) (r : QueryId) : Prop
  /-- Nothing, except that it may be the call of a callback, or a round that has none left. -/
  | quiet {news : List Task} (hagenda : e.step.agenda = news ++ e.taken.agenda)
      (hnews : ∀ t ∈ news, t.isRoundOf r = false)
      (hcallbacks : (e.step.callbacks r).length = (e.callbacks r).length)
      (hstarted : e.started r = none)
      (hhead : ∀ state skip i rest, e.agenda.head? ≠ some (.round r state skip (i :: rest)))
  /-- It starts a round. -/
  | start {state skip : Bool} (hstarted : e.started r = some (state, skip))
      (hagenda : e.step.agenda =
        .round r state skip (List.range (e.callbacks r).length) :: e.taken.agenda)
      (hcallbacks : (e.step.callbacks r).length = (e.callbacks r).length)
  /-- It is a round, whose next callback is called. -/
  | call {state skip : Bool} {i : Nat} {rest : List Nat} {base : List Task}
      (ha : e.agenda = .round r state skip (i :: rest) :: base)
      (hagenda : e.step.agenda = .deliver r i state skip :: .round r state skip rest :: base)
      (hcallbacks : (e.step.callbacks r).length = (e.callbacks r).length)
  /-- It adds a callback, which is run by a trigger or, if the rule had its first round, by itself on
  the result that the rule has now. -/
  | attach {first : Task} {more : List Task}
      (hagenda : e.step.agenda = first :: (more ++ e.taken.agenda))
      (hmore : ∀ t ∈ more, t.isRoundOf r = false)
      (hcallbacks : (e.step.callbacks r).length = (e.callbacks r).length + 1)
      (hfirst : (first = .trigger r ∧ e.last? r = none) ∨
        (first = .deliver r (e.callbacks r).length (e.taken.evaluate r).value true ∧
          e.last? r ≠ none))
      (hstarted : e.started r = none)
      (hhead : ∀ t, e.agenda.head? = some t → t.isRound = false)

variable {e : Engine} {r : QueryId} {t : Task} {ts : List Task}

/-- What is quiet has nothing to do with the rounds of any query. -/
theorem beat_of_quiet (ha : e.agenda = t :: ts) (ht : t.isTrigger = false)
    (hround : ∀ state skip i rest, t ≠ .round r state skip (i :: rest))
    (h : e.taken.Quiet (e.taken.perform t)) : e.Beat r := by
  rw [← step_of_agenda ha] at h
  obtain ⟨news, hagenda, hnews⟩ := h.agenda
  refine .quiet hagenda (fun t ht => Task.isRoundOf_of_isRound (hnews t ht) r) (h.callbacks r)
    (started_of_not_trigger ha ht) fun state skip i rest hhead => ?_
  rw [ha] at hhead
  exact hround state skip i rest (Option.some.inj hhead)

/-- A round that starts adds no callback. -/
theorem length_callbacks_startRound (e : Engine) (p r : QueryId) (state skip : Bool) :
    ((e.startRound p state skip).callbacks r).length = (e.callbacks r).length := by
  rw [callbacks, callbacks, query?_startRound]
  split
  · cases e.query? r <;> rfl
  · rfl

/-- A trigger may start a round at the root of its tree, and does nothing to other queries. -/
theorem beat_of_trigger {q : QueryId} (ha : e.agenda = .trigger q :: ts) : e.Beat r := by
  have hhead : ∀ state skip i rest, e.agenda.head? ≠ some (.round r state skip (i :: rest)) := by
    simp [ha]
  rcases step_trigger_cases ha with ⟨hno, hqueries, hagenda⟩ | ⟨hp, hl, hstep⟩
  · have hsame : (e.step.callbacks r).length = (e.callbacks r).length := by
      rw [callbacks, callbacks, query?, query?, hqueries]
    have hstarted : e.started r = none := by
      rw [started_trigger ha, if_neg]
      rintro ⟨rfl, hp, hl⟩
      rcases hno with hp' | hl'
      · simp [hp] at hp'
      · exact hl hl'
    exact .quiet (show e.step.agenda = [] ++ _ from hagenda) (by simp) hsame hstarted hhead
  · have hsame : (e.step.callbacks r).length = (e.callbacks r).length := by
      rw [hstep]
      exact length_callbacks_startRound e.taken _ r _ _
    have hagenda : e.step.agenda = [.round (e.taken.root q)
        (e.taken.evaluate (e.taken.root q)).value (e.last? (e.taken.root q)).isNone
        (List.range (e.taken.callbacks (e.taken.root q)).length)] ++ e.taken.agenda := by
      rw [hstep]
      rfl
    by_cases hr : e.taken.root q = r
    · subst hr
      exact .start (by rw [started_trigger ha, if_pos ⟨rfl, hp, hl⟩]) hagenda hsame
    · refine .quiet hagenda (by simp [Task.isRoundOf, hr]) hsame ?_ hhead
      rw [started_trigger ha, if_neg fun h => hr h.1]

/-- A task that adds a callback adds it to `r`, or has nothing to do with `r`. A call at once is one
at a query with a result, so if that is not `r` the call is one of another query. -/
theorem beat_of_attaches {e₁ e₂ : Engine} {p : QueryId} {first : Task} {more : List Task}
    (ha : e.agenda = t :: ts) (ht : t.isTrigger = false) (hround : t.isRound = false)
    (hquiet : e.taken.Quiet e₁) (hattaches : e₁.Attaches e₂ p first)
    (hagenda : e.step.agenda = first :: (more ++ e₂.agenda))
    (hqueries : e.step.queries = e₂.queries) (hmore : ∀ t ∈ more, t.isRound = false)
    (hlast : e₁.last? p = e.last? p)
    (hresult : e.last? p ≠ none → e₁.evaluate p = e.taken.evaluate p) : e.Beat r := by
  obtain ⟨news, hnewsAgenda, hnews⟩ := hquiet.agenda
  have hstep : e.step.agenda = first :: ((more ++ news) ++ e.taken.agenda) := by
    rw [hagenda, hattaches.agenda, hnewsAgenda, List.append_assoc]
  have hmore' : ∀ t ∈ more ++ news, t.isRoundOf r = false := fun t ht =>
    Task.isRoundOf_of_isRound ((List.mem_append.1 ht).elim (hmore t) (hnews t)) r
  have hhead : ∀ t', e.agenda.head? = some t' → t'.isRound = false := by
    intro t' ht'
    rw [ha] at ht'
    exact Option.some.inj ht' ▸ hround
  have hstarted : e.started r = none := started_of_not_trigger ha ht
  have hcallbacks : (e.step.callbacks r).length =
      (e.callbacks r).length + if r = p ∧ (e₁.query? p).isSome then 1 else 0 := by
    rw [callbacks, query?, hqueries, ← query?, ← callbacks, hattaches.callbacks, hquiet.callbacks]
    rfl
  by_cases hp : r = p ∧ (e₁.query? p).isSome
  · rw [if_pos hp] at hcallbacks
    obtain ⟨rfl, -⟩ := hp
    refine .attach hstep hmore' hcallbacks ?_ hstarted hhead
    rcases hattaches.first with ⟨hfirst, hnone⟩ | ⟨hfirst, hsome⟩
    · exact Or.inl ⟨hfirst, hlast ▸ hnone⟩
    · rw [hlast] at hsome
      rw [hquiet.callbacks, hresult hsome] at hfirst
      exact Or.inr ⟨hfirst, hsome⟩
  · rw [if_neg hp] at hcallbacks
    refine .quiet (show e.step.agenda = (first :: (more ++ news)) ++ _ from hstep) ?_ hcallbacks
      hstarted ?_
    · refine List.forall_mem_cons.2 ⟨?_, hmore'⟩
      rcases hattaches.first with ⟨rfl, -⟩ | ⟨rfl, hsome⟩
      · rfl
      · have hpr : r ≠ p := by
          rintro rfl
          refine hp ⟨rfl, ?_⟩
          cases hr : e₁.query? r with
          | none => simp [last?, queryAt, hr] at hsome
          | some s => rfl
        simpa [Task.isRoundOf] using hpr.symm
    · intro state skip i rest hf
      exact absurd (hhead _ hf) (by simp [Task.isRound])

/-- Looking for the query of a name changes nothing, or adds one. -/
theorem named_cases (e : Engine) (name : String) : (e.named name).2 = e ∨
    ((e.named name).1 = e.queries.length ∧ ∀ p, (e.named name).2.query? p =
      if p = e.queries.length then some {} else e.query? p) := by
  unfold named
  split
  · exact Or.inl rfl
  · exact Or.inr ⟨rfl, query?_addQuery e none⟩

/-- The tree of a named query, while the step about it keeps it in use, has the last result that it
had before. If there is one, then the query was there before, and evaluates to the same. -/
theorem last?_named (e : Engine) (name : String) (e' : Engine) (p : QueryId)
    (he : e' = (e.named name).2.schedule [.hold [] [(e.named name).1]])
    (hp : p = e'.root (e.named name).1) :
    e'.last? p = e.last? p ∧ (e.last? p ≠ none → e'.evaluate p = e.evaluate p) := by
  rcases named_cases e name with hsame | ⟨hnew, hquery⟩
  · subst he
    refine ⟨by rw [hsame]; rfl, fun _ => ?_⟩
    rw [evaluate_hold, hsame]
  · have hquery' : ∀ p, e'.query? p = if p = e.queries.length then some {} else e.query? p :=
      fun p => by rw [he]; exact hquery p
    have hroot : p = e.queries.length := by
      rw [hp, hnew]
      refine root_of_parent fun s hs => ?_
      rw [hquery', if_pos rfl] at hs
      rw [← Option.some.inj hs]
    have hnone : e.last? p = none := by simp [last?, queryAt, query?, hroot]
    refine ⟨?_, fun h => absurd hnone h⟩
    rw [hnone, last?, queryAt, hquery', if_pos hroot]
    rfl

/-- What a step does is quiet, or adds a callback in front of other tasks. -/
def StepCases (e e' : Engine) : Prop := e.Quiet e' ∨
  ∃ e₁ e₂ p first more, e.Quiet e₁ ∧ e₁.Attaches e₂ p first ∧
    e' = e₂.schedule (first :: more) ∧ (∀ t ∈ more, t.isRound = false) ∧
    e₁.last? p = e.last? p ∧ (e.last? p ≠ none → e₁.evaluate p = e.evaluate p)

/-- An operation on a query of a name is quiet or adds a callback to it. -/
theorem queryOp_cases {e e₁ : Engine} {q : QueryId} (h : e.Quiet e₁)
    (hlast : e₁.last? (e₁.root q) = e.last? (e₁.root q) ∧
      (e.last? (e₁.root q) ≠ none → e₁.evaluate (e₁.root q) = e.evaluate (e₁.root q)))
    (op : QueryOp Step) : e.StepCases (e₁.queryOp q op) := by
  cases op with
  | callback label run =>
    exact Or.inr ⟨e₁, _, _, _, _, h, attaches_addCallback e₁ q _, rfl, by simp [Task.isRound],
      hlast⟩
  | condition node =>
    exact Or.inl (((h.nodeLeaf node).addCondition _ _ _).schedule (by simp [Task.isRound]))
  | or => exact Or.inl ((h.addClause q).schedule (by simp [Task.isRound]))
  | trigger => exact Or.inl (h.schedule (by simp [Task.isRound]))
  | pause => exact Or.inl ((h.setPaused q true).schedule (by simp [Task.isRound]))
  | resume => exact Or.inl ((h.setPaused q false).schedule (by simp [Task.isRound]))
  | negate failing => exact Or.inl ((h.setDirect q failing).schedule (by simp [Task.isRound]))
  | evaluate => exact Or.inl ((h.observe _).reply _)
  | same other => exact Or.inl ((h.named other).reply _)
  | parent other => exact Or.inl ((h.named other).reply _)
  | listen node label =>
    have hn := h.nodeLeaf node
    refine Or.inl ?_
    simp only [queryOp]
    split
    · exact (hn.updateFlag _ _).reply _
    · exact hn.reply _
  | and => exact Or.inl (h.schedule (by simp [Task.isRound]))
  | inspect => exact Or.inl (h.schedule (by simp [Task.isRound]))
  | new => exact Or.inl h
  | childOf parent => exact Or.inl h
  | drop => exact Or.inl h

/-- A step is quiet or adds a callback. -/
theorem performStep_cases (e : Engine) (s : Step) : e.StepCases (e.performStep s) := by
  have h := Quiet.refl e
  unfold performStep
  split
  · next name op =>
    unfold queryStep
    split
    · exact Or.inl (((h.addQuery none).nameQuery _ _).reply _)
    · exact Or.inl ((((h.named _).addQuery _).nameQuery _ _).reply _)
    · exact Or.inl ((h.updateSession _).reply _)
    · have hnamed : e.Quiet ((e.named name).2.schedule [.hold [] [(e.named name).1]]) :=
        (h.named name).schedule (by simp [Task.isRound])
      have hlast := last?_named e name _ _ rfl rfl
      dsimp only
      generalize (e.named name).2.schedule [.hold [] [(e.named name).1]] = e₁ at hnamed hlast ⊢
      generalize (e.named name).1 = q at hlast ⊢
      exact queryOp_cases hnamed hlast op
  · exact Or.inl ((h.updateFlag _ _).schedule (by simp [Task.isRound]))
  · exact Or.inl ((h.updateSession _).reply _)
  · dsimp only
    split
    · exact Or.inl ((h.updateSession _).reply _)
    · exact Or.inl ((h.updateSession _).reply _)
  · split
    · exact Or.inl ((h.schedule (by simp [Task.isRound])).hostStep _ _ _)
    · exact Or.inl (h.reply _)

/-! ## The kinds of tasks -/

section Kinds

variable {e : Engine} {r : QueryId} {ts : List Task}

/-- Without a task nothing happens. -/
theorem beat_of_nil (ha : e.agenda = []) : e.Beat r := by
  have hstep : e.step = e := by simp [step, ha]
  have hagenda : e.step.agenda = [] ++ e.taken.agenda := by
    rw [hstep, taken, ha]
    rfl
  exact .quiet hagenda (by simp) (by rw [hstep]) (by simp [started, ha]) (by simp [ha])

/-- A round at the query calls its next callback; one at another query leaves it alone. -/
theorem beat_of_round {q : QueryId} {state skip : Bool} {pending : List Nat}
    (ha : e.agenda = .round q state skip pending :: ts) : e.Beat r := by
  cases pending with
  | nil => exact beat_of_quiet ha rfl (by simp) (Quiet.refl e.taken)
  | cons i rest =>
    have hstep : e.step = e.taken.perform (.round q state skip (i :: rest)) := step_of_agenda ha
    have hagenda : e.step.agenda =
        [.deliver q i state skip, .round q state skip rest] ++ e.taken.agenda := by
      rw [hstep]
      rfl
    have hsame : (e.step.callbacks r).length = (e.callbacks r).length := by
      rw [hstep]
      rfl
    by_cases hq : q = r
    · subst hq
      exact .call ha (by rw [hagenda, agenda_taken ha]; rfl) hsame
    · exact .quiet hagenda (by simp [Task.isRoundOf, hq]) hsame (started_of_not_trigger ha rfl)
        (by simp [ha, hq])

/-- An operation of a chain is quiet or adds a callback. -/
theorem beat_of_chain {f : Facet} {ops : List (ChainOp Step)} {name : Option String}
    (ha : e.agenda = .chain f ops name :: ts) : e.Beat r := by
  have h := Quiet.refl e.taken
  cases ops with
  | nil =>
    refine beat_of_quiet ha rfl (by simp) ?_
    cases name with
    | none => exact h.reply _
    | some name => exact (h.keepRule f name).reply _
  | cons op ops =>
    rcases chainOp_cases e.taken f op with ⟨hquiet, htasks⟩ | ⟨p, first, htasks, hattaches⟩
    · refine beat_of_quiet ha rfl (by simp) (hquiet.schedule fun t ht => ?_)
      rcases List.mem_append.1 ht with ht | ht
      · exact htasks t ht
      · rw [List.mem_singleton.1 ht]
        rfl
    · have hperform : e.step = (e.taken.chainOp f op).1.schedule
          (first :: [.chain (e.taken.chainOp f op).2.1 ops name]) := by
        rw [step_of_agenda ha]
        simp only [perform, chain, htasks]
        rfl
      exact beat_of_attaches ha rfl rfl h hattaches (by rw [hperform]; rfl)
        (by rw [hperform]; rfl) (by simp [Task.isRound]) rfl fun _ => rfl

/-- A step is quiet or adds a callback. -/
theorem beat_of_step {s : Step} (ha : e.agenda = .step s :: ts) : e.Beat r := by
  rcases performStep_cases e.taken s with
    hquiet | ⟨e₁, e₂, p, first, more, h₁, h₂, heq, hmore, hlast, hresult⟩
  · exact beat_of_quiet ha rfl (by simp) hquiet
  · have hperform : e.step = e₂.schedule (first :: more) := (step_of_agenda ha).trans heq
    exact beat_of_attaches ha rfl rfl h₁ h₂ (by rw [hperform]; rfl) (by rw [hperform]; rfl)
      hmore hlast hresult

/-- Applying a token is quiet. -/
theorem beat_of_dispatch {i : HostId} {tokens : List (Token Step)} {args : Args}
    {negate skip : Bool} {report : Report} {answers : Bool}
    (ha : e.agenda = .dispatch i tokens args negate skip report answers :: ts) : e.Beat r := by
  have h := Quiet.refl e.taken
  cases tokens with
  | nil =>
    refine beat_of_quiet ha rfl (by simp) ?_
    simp only [perform]
    split
    · exact h.reply _
    · exact h
  | cons token tokens =>
    have hdispatch : e.taken.Quiet (e.taken.dispatch i args negate skip report
        (.dispatch i tokens args negate skip · answers) token) :=
      h.dispatch _ _ _ _ _ (fun _ => rfl) _
    exact beat_of_quiet ha rfl (by simp) hdispatch

/-- An action is quiet. -/
theorem beat_of_perform {i : HostId} {action : Action} {args : Args} {skip : Bool}
    (ha : e.agenda = .perform i action args skip :: ts) : e.Beat r := by
  refine beat_of_quiet ha rfl (by simp) ((Quiet.refl e.taken).schedule fun t ht => ?_)
  rcases List.mem_append.1 ht with ht | ht
  · exact Quiet.isRound_actionTasks _ _ _ _ _ t ht
  · rw [List.mem_singleton.1 ht]
    rfl

/-- Informing listeners is quiet. -/
theorem beat_of_inform {listeners : List Listener} {field : String} {v : Option Value}
    {automatic : Bool} (ha : e.agenda = .inform listeners field v automatic :: ts) : e.Beat r := by
  have h := Quiet.refl e.taken
  cases listeners with
  | nil => exact beat_of_quiet ha rfl (by simp) h
  | cons l ls =>
    exact beat_of_quiet ha rfl (by simp) ((h.schedule (by simp [Task.isRound])).inform _ _ _ _)

/-- So is informing those who listen to a flag. -/
theorem beat_of_flagSet {listeners : List FlagListener}
    (ha : e.agenda = .flagSet listeners :: ts) : e.Beat r := by
  have h := Quiet.refl e.taken
  cases listeners with
  | nil => exact beat_of_quiet ha rfl (by simp) h
  | cons l ls =>
    refine beat_of_quiet ha rfl (by simp) ?_
    cases l with
    | log label => exact (h.record _).schedule (by simp [Task.isRound])
    | query q =>
      simp only [perform]
      split
      · exact h.schedule (by simp [Task.isRound])
      · exact h.schedule (by simp [Task.isRound])

end Kinds

/-- What a task does to the rounds at a query, for every task of every script. -/
theorem beat (e : Engine) (r : QueryId) : e.Beat r := by
  cases ha : e.agenda with
  | nil => exact beat_of_nil ha
  | cons t ts =>
    have h := Quiet.refl e.taken
    cases t with
    | trigger q => exact beat_of_trigger ha
    | round q state skip pending => exact beat_of_round ha
    | deliver q i state skip => exact beat_of_quiet ha rfl (by simp) (h.deliver _ _ _ _)
    | chain f ops name => exact beat_of_chain ha
    | step s => exact beat_of_step ha
    | ran step => exact beat_of_quiet ha rfl (by simp) (h.record _)
    | answer a => exact beat_of_quiet ha rfl (by simp) (h.reply _)
    | summarize q => exact beat_of_quiet ha rfl (by simp) (h.reply _)
    | hold hosts queries => exact beat_of_quiet ha rfl (by simp) h
    | dispatch i tokens args negate skip report answers => exact beat_of_dispatch ha
    | perform i action args skip => exact beat_of_perform ha
    | effect i field effect s skip answers =>
      exact beat_of_quiet ha rfl (by simp) (h.applyEffect _ _ _ _ _ _)
    | write i field v automatic => exact beat_of_quiet ha rfl (by simp) (h.write _ _ _ _)
    | log event => exact beat_of_quiet ha rfl (by simp) (h.record _)
    | notify i changed automatic => exact beat_of_quiet ha rfl (by simp) (h.notify _ _ _)
    | inform listeners field v automatic => exact beat_of_inform ha
    | flagSet listeners => exact beat_of_flagSet ha

end Engine

end FormRules
