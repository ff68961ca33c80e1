import FormRules.Bootstrap
import FormRules.Proofs.Rounds

/-!
# What running adds to the log

Whatever runs only adds to the log, and what it adds is about queries, actions and listeners. That a
form's script starts, that a form is ready and that all are (`Event.isAnnouncement`) is for the
bootstrap to say: no task says it, unless such an event was put on the agenda, and no task puts it
there. Nor does any task add a host or a session. `Engine.Works` is all of this, one operation of
the engine after the other, and `Engine.records_run` says it of a run.
-/

namespace FormRules

/-- Whether the event is about the forms of a bootstrap: a script starts, a form is ready or
unknown, or all are ready. -/
def Event.isAnnouncement : Event → Bool
  | .script .. | .formReady .. | .allReady _ => true
  | .diagnostic (.formReady _) | .diagnostic (.allReady _) | .diagnostic (.unknownForm _) => true
  | _ => false

/-- Whether the task puts such an event into the log. -/
def Task.announces : Task → Bool
  | .log event => event.isAnnouncement
  | _ => false

/-- A task announces nothing unless it is there to log an announcement. -/
theorem Task.announces_eq_false {t : Task} : t.announces = false ↔
    ∀ event, t = .log event → event.isAnnouncement = false := by
  cases t <;> simp [announces]

/-- The steps of a script and the records of their answers announce nothing. -/
theorem Task.announces_ofScript (run : List Step) :
    ∀ t ∈ Task.ofScript run, t.announces = false := by
  simp only [ofScript, List.mem_flatMap]
  rintro t ⟨s, -, ht⟩
  simp only [List.mem_cons, List.not_mem_nil, or_false] at ht
  rcases ht with rfl | rfl <;> rfl

/-- All that a built-in action tells of is that it was given no class. -/
theorem BuiltinAction.eq_of_note_mem_plan {a : BuiltinAction} {classes : ClassNames} {args : Args}
    {d : Diagnostic} (h : .note d ∈ a.plan classes args) : d = .noClassName args.field := by
  cases a with
  | classed s index =>
    simp only [plan] at h
    split at h
    · simpa using h
    · simp at h
  | collapse s | required s =>
    simp only [plan] at h
    split at h <;> simp at h
  | write =>
    simp only [plan] at h
    split at h <;> simp at h
  | effect e s => simp [plan] at h

/-- No announcements are among the events. -/
def Event.Unannounced (events : List Event) : Prop := ∀ event ∈ events, event.isAnnouncement = false

namespace Event.Unannounced

theorem nil : Unannounced [] := by simp [Unannounced]

theorem singleton {event : Event} (h : event.isAnnouncement = false) : Unannounced [event] := by
  simpa [Unannounced] using h

/-- Events in a row announce nothing if none of them does. -/
theorem append {xs ys : List Event} (hx : Unannounced xs) (hy : Unannounced ys) :
    Unannounced (xs ++ ys) := by
  rintro event hevent
  exact (List.mem_append.1 hevent).elim (hx event) (hy event)

end Event.Unannounced

/-! ## Computations that only read -/

namespace Traced

variable {α β : Type}

/-- No announcement is made on the way. -/
def IsQuiet (x : Traced α) : Prop := Event.Unannounced x.events

theorem IsQuiet.pure (a : α) : IsQuiet (pure a : Traced α) := .nil

theorem IsQuiet.emit {event : Event} (h : event.isAnnouncement = false) : (emit event).IsQuiet :=
  .singleton h

theorem IsQuiet.emitLabelled {event : String → Event} (h : ∀ l, (event l).isAnnouncement = false)
    (label : Option String) : (emitLabelled label event).IsQuiet := by
  cases label with
  | none => exact .pure ()
  | some l => exact .emit (h l)

/-- A computation that goes on with another logs what both do. -/
theorem IsQuiet.bind {x : Traced α} {f : α → Traced β} (hx : x.IsQuiet) (hf : ∀ a, (f a).IsQuiet) :
    (x >>= f).IsQuiet :=
  Event.Unannounced.append hx (hf x.value)

theorem IsQuiet.map {x : Traced α} (hx : x.IsQuiet) (f : α → β) : (f <$> x).IsQuiet := by
  rw [IsQuiet, events_map]
  exact hx

/-- Asking one element after the other logs what is asked of them. -/
theorem IsQuiet.allM {f : α → Traced Bool} {xs : List α} (h : ∀ a ∈ xs, (f a).IsQuiet) :
    (xs.allM f).IsQuiet := by
  induction xs with
  | nil => exact .pure true
  | cons x xs ih =>
    obtain ⟨hx, hxs⟩ := List.forall_mem_cons.1 h
    refine hx.bind fun b => ?_
    cases b with
    | true => exact ih hxs
    | false => exact .pure false

/-- Looking for an element logs what is asked of those that are tried. -/
theorem IsQuiet.anyM {f : α → Traced Bool} {xs : List α} (h : ∀ a ∈ xs, (f a).IsQuiet) :
    (xs.anyM f).IsQuiet := by
  induction xs with
  | nil => exact .pure false
  | cons x xs ih =>
    obtain ⟨hx, hxs⟩ := List.forall_mem_cons.1 h
    refine hx.bind fun b => ?_
    cases b with
    | true => exact .pure true
    | false => exact ih hxs

end Traced

/-- Reading an identifier may report that it is malformed. -/
theorem Spec.isQuiet_read (text : String) : (Spec.read text).IsQuiet := by
  unfold Spec.read
  split
  · exact .pure _
  · exact (Traced.IsQuiet.emit rfl).bind fun _ => .pure _

namespace Host

variable (host : Host)

/-- Resolving an identifier may report selectors that pick nothing. -/
theorem isQuiet_resolve (spec : Spec) (quiet : Bool) : (host.resolve spec quiet).IsQuiet := by
  have hall : ∀ (ss : List Selector) (found : List Handle),
      (host.resolveAll quiet found ss).IsQuiet := by
    intro ss
    induction ss with
    | nil => exact fun _ => .pure _
    | cons s ss ih =>
      intro found
      simp only [resolveAll]
      split
      · exact (Traced.IsQuiet.emit rfl).bind fun _ => ih _
      · exact ih _
  cases spec with
  | all => exact .pure _
  | fields ss => exact hall ss []

theorem isQuiet_fields (text : String) (quiet : Bool) : (host.fields text quiet).IsQuiet :=
  (Spec.isQuiet_read text).bind fun _ => host.isQuiet_resolve _ _

theorem isQuiet_valueOf (spec : Spec) : (host.valueOf spec).IsQuiet :=
  (host.isQuiet_resolve spec false).bind fun _ => .pure _

/-- Checking a condition logs the checks of the fields. -/
theorem isQuiet_check (flags : Flags) (spec : Spec) (c : Value) :
    (host.check flags spec c).IsQuiet := by
  refine (host.isQuiet_resolve spec false).bind fun hs => ?_
  split
  · exact .pure _
  · refine .allM fun h _ => ?_
    split
    · exact (Traced.IsQuiet.emitLabelled (fun _ => rfl) _).bind fun _ => .pure _
    · exact .pure true

end Host

namespace Engine

/-- A test with a label logs that it is asked. -/
theorem isQuiet_askTest (e : Engine) (h : HostId) (field : String) (spec : Spec) (t : Test)
    (label : Option String) : (e.askTest h field spec t label).IsQuiet := by
  have htell : ∀ (field : String) (v : Option Value) (result : Bool), (do
      Traced.emitLabelled label fun label => .test label field v result
      return result).IsQuiet :=
    fun _ _ _ => (Traced.IsQuiet.emitLabelled (fun _ => rfl) label).bind fun _ => .pure _
  unfold askTest
  cases spec.isAll with
  | true => exact (Traced.IsQuiet.pure none).bind fun _ => htell _ _ _
  | false =>
    cases (e.host? h).filter fun _ => e.hostInUse h with
    | none => exact (Traced.IsQuiet.pure none).bind fun _ => htell _ _ _
    | some host => exact (host.isQuiet_valueOf spec).bind fun _ => htell _ _ _

/-- A condition logs flags, checks and tests, or what the query logs that it stands for. -/
theorem isQuiet_evaluateLeaf (e : Engine) {query : QueryId → Traced Bool}
    (hquery : ∀ q, (query q).IsQuiet) (leaf : Leaf) : (e.evaluateLeaf query leaf).IsQuiet := by
  cases leaf with
  | query q => exact hquery q
  | flag ref logged =>
    simp only [evaluateLeaf]
    split
    · exact (Traced.IsQuiet.emit rfl).bind fun _ => .pure _
    · exact .pure _
  | check h spec c =>
    simp only [evaluateLeaf]
    split
    · exact Host.isQuiet_check _ _ _ _
    · exact .pure false
  | test h field spec t label => exact e.isQuiet_askTest h field spec t label

/-- Evaluating a query logs what its conditions do. -/
theorem isQuiet_evaluate (e : Engine) (q : QueryId) : (e.evaluate q).IsQuiet := by
  have hwithin : ∀ n q, (e.evaluateWithin n q).IsQuiet := by
    intro n
    induction n with
    | zero => exact fun _ => .pure false
    | succ n ih =>
      intro q
      rw [evaluateWithin]
      split
      · exact .anyM fun clause _ => .allM fun leaf _ => e.isQuiet_evaluateLeaf ih leaf
      · exact .pure false
  exact hwithin _ q

/-! ## Work -/

/-- `e'` is `e` with more in its log, but no announcements, and with as many hosts and sessions. -/
structure Records (e e' : Engine) : Prop where
  log : ∃ events, e'.log.toList = e.log.toList ++ events ∧ Event.Unannounced events
  hosts : e'.hosts.length = e.hosts.length
  sessions : e'.sessions.length = e.sessions.length

/-- `e'` is `e` after some work, which has put no announcements on the agenda either. -/
structure Works (e e' : Engine) : Prop extends Records e e' where
  agenda : ∃ tasks, e'.agenda = tasks ++ e.agenda ∧ ∀ t ∈ tasks, t.announces = false

theorem Records.refl (e : Engine) : e.Records e := ⟨⟨[], by simp, .nil⟩, rfl, rfl⟩

/-- What is recorded in two stretches of work is recorded in a row. -/
theorem Records.trans {e e' e'' : Engine} (h : e.Records e') (h' : e'.Records e'') :
    e.Records e'' where
  log := by
    obtain ⟨before, hlog, hbefore⟩ := h.log
    obtain ⟨after, hlog', hafter⟩ := h'.log
    exact ⟨before ++ after, by rw [hlog', hlog, List.append_assoc], hbefore.append hafter⟩
  hosts := h'.hosts.trans h.hosts
  sessions := h'.sessions.trans h.sessions

namespace Works

variable {e e' e'' : Engine}

theorem refl (e : Engine) : e.Works e := ⟨.refl e, [], by simp, by simp⟩

/-- Changes of anything but the log and the agenda, and no host or session more. -/
theorem of_eq (h : e.Works e') (hlog : e''.log = e'.log) (hagenda : e''.agenda = e'.agenda)
    (hhosts : e''.hosts.length = e'.hosts.length)
    (hsessions : e''.sessions.length = e'.sessions.length) : e.Works e'' where
  log := hlog ▸ h.log
  agenda := hagenda ▸ h.agenda
  hosts := hhosts.trans h.hosts
  sessions := hsessions.trans h.sessions

/-- One may log what is no announcement. -/
theorem record (h : e.Works e') {events : List Event} (hevents : Event.Unannounced events) :
    e.Works (e'.record events) where
  log := by
    obtain ⟨before, hlog, hbefore⟩ := h.log
    exact ⟨before ++ events, by simp [Engine.record, hlog], hbefore.append hevents⟩
  agenda := h.agenda
  hosts := h.hosts
  sessions := h.sessions

theorem event (h : e.Works e') {event : Event} (hevent : event.isAnnouncement = false) :
    e.Works (e'.record [event]) := h.record (.singleton hevent)

/-- A computation that only reads may be run. -/
theorem observe {α : Type} (h : e.Works e') {x : Traced α} (hx : x.IsQuiet) :
    e.Works (e'.observe x).2 := h.record hx

/-- Tasks that announce nothing may be put on the agenda. -/
theorem schedule (h : e.Works e') {tasks : List Task} (htasks : ∀ t ∈ tasks, t.announces = false) :
    e.Works (e'.schedule tasks) where
  log := h.log
  agenda := by
    obtain ⟨before, hagenda, hbefore⟩ := h.agenda
    refine ⟨tasks ++ before, by simp [Engine.schedule, hagenda], fun t ht => ?_⟩
    exact (List.mem_append.1 ht).elim (htasks t) (hbefore t)
  hosts := h.hosts
  sessions := h.sessions

theorem reply (h : e.Works e') (a : Answer) : e.Works (e'.reply a) := h.of_eq rfl rfl rfl rfl

theorem updateHost (h : e.Works e') (i : HostId) (f : Host → Host) :
    e.Works (e'.updateHost i f) := h.of_eq rfl rfl (List.length_modify ..) rfl

theorem updateQuery (h : e.Works e') (q : QueryId) (f : Query → Query) :
    e.Works (e'.updateQuery q f) := h.of_eq rfl rfl rfl rfl

/-- A change of the session at hand adds none. -/
theorem updateSession (h : e.Works e') (f : Session → Session) : e.Works (e'.updateSession f) :=
  h.of_eq rfl rfl rfl (List.length_modify ..)

/-- A change of a flag adds no session. -/
theorem updateFlag (h : e.Works e') (ref : FlagRef) (f : Flag → Flag) :
    e.Works (e'.updateFlag ref f) := h.of_eq rfl rfl rfl (List.length_modify ..)

theorem addQuery (h : e.Works e') (parent : Option QueryId) : e.Works (e'.addQuery parent).2 :=
  h.of_eq rfl rfl rfl rfl

theorem nameQuery (h : e.Works e') (name : String) (q : QueryId) : e.Works (e'.nameQuery name q) :=
  h.updateSession _

theorem keepRule (h : e.Works e') (f : Facet) (name : String) : e.Works (e'.keepRule f name) :=
  (h.nameQuery _ _).updateSession _

theorem named (h : e.Works e') (name : String) : e.Works (e'.named name).2 := by
  unfold Engine.named
  split
  · exact h
  · exact (h.addQuery none).nameQuery name _

theorem nodeLeaf (h : e.Works e') (n : NodeSpec) : e.Works (e'.nodeLeaf n).2 := by
  cases n with
  | query name => exact h.named name
  | flag name observable logged => exact h

theorem addCondition (h : e.Works e') (q : QueryId) (leaf : Leaf) (observable : Bool) :
    e.Works (e'.addCondition q leaf observable) := by
  unfold Engine.addCondition observeLeaf
  split
  · split
    · exact (h.updateQuery _ _).updateFlag _ _
    · exact h.updateQuery _ _
  · exact h.updateQuery _ _

/-- A new callback has the tree triggered or is called alone, with the present result. -/
theorem addCallback (h : e.Works e') (q : QueryId) (c : Callback) :
    e.Works (e'.addCallback q c).2 ∧ (e'.addCallback q c).1.announces = false := by
  unfold Engine.addCallback
  dsimp only
  split
  · exact ⟨h.updateQuery _ _, rfl⟩
  · exact ⟨(h.updateQuery _ _).observe (isQuiet_evaluate _ _), rfl⟩

/-- A trigger logs the evaluation of the tree and that the result has changed. -/
theorem trigger (h : e.Works e') (q : QueryId) : e.Works (e'.trigger q) := by
  unfold Engine.trigger
  dsimp only
  split
  · exact h.event rfl
  · have hresult := h.observe (isQuiet_evaluate e' (e'.root q))
    split
    · exact hresult
    · exact ((hresult.updateQuery _ _).event rfl).schedule (by simp [Task.announces_eq_false])

/-- A callback logs that it is called, and schedules its script or its actions. -/
theorem deliver (h : e.Works e') (q : QueryId) (i : Nat) (state skip : Bool) :
    e.Works (e'.deliver q i state skip) := by
  unfold Engine.deliver
  split
  · exact h
  · exact (h.event rfl).schedule (Task.announces_ofScript _)
  · next host p actions args spent _ =>
    have hmark : e.Works (if p = .once ∧ state then
        e'.updateQuery q fun s =>
          { s with callbacks := s.callbacks.set i (.attached host p actions args true) }
        else e') := by
      split
      · exact h.updateQuery _ _
      · exact h
    dsimp only
    generalize (if p = .once ∧ state then _ else e') = marked at hmark ⊢
    split
    · exact h
    · split
      · split
        · exact hmark.schedule (by simp [Task.announces_eq_false])
        · exact hmark
      · exact hmark

/-! ### Hosts -/

/-- A subscription resolves the fields that it is for. -/
theorem subscribe (h : e.Works e') (i : HostId) (spec : Spec) (listener : Listener) :
    e.Works (e'.subscribe i spec listener) := by
  unfold Engine.subscribe
  split
  · exact h
  · next host _ =>
    refine updateHost (h.observe ?_) _ _
    split
    · exact .pure none
    · exact (host.isQuiet_resolve _ _).map some

theorem listenTo (h : e.Works e') (f : Facet) (spec : Spec) : e.Works (e'.listenTo f spec) := by
  unfold Engine.listenTo
  split
  · exact h
  · exact h.subscribe _ _ _

/-- An effect is logged for forms that are watched. -/
theorem applyEffect (h : e.Works e') (i : HostId) (field : String) (effect : Effect) (s : Switch)
    (skip answers : Bool) : e.Works (e'.applyEffect i field effect s skip answers) := by
  unfold Engine.applyEffect
  split
  · exact h
  · next host _ =>
    have hform := (h.observe (host.isQuiet_fields field false)).updateHost i
      fun x => { x with form := (host.form.apply (host.fields field false).value effect s).1 }
    refine schedule ?_ (by cases answers <;> simp [Task.announces_eq_false])
    split
    · exact hform.event rfl
    · exact hform

/-- A write is logged for forms that are watched. -/
theorem write (h : e.Works e') (i : HostId) (field : String) (v : Value) (automatic : Bool) :
    e.Works (e'.write i field v automatic) := by
  unfold Engine.write
  split
  · exact h
  · next host _ =>
    have hform := (h.observe (host.isQuiet_fields field false)).updateHost i
      fun x => { x with form := (host.form.write (host.fields field false).value v).1 }
    refine schedule ?_ (by simp [Task.announces_eq_false])
    split
    · exact hform.event rfl
    · exact hform

/-- A change of a field is noted with the number of those who hear of it. -/
theorem notify (h : e.Works e') (i : HostId) (changed : List Handle) (automatic : Bool) :
    e.Works (e'.notify i changed automatic) := by
  unfold Engine.notify
  split
  · refine schedule (event ?_ rfl) (by simp [Task.announces_eq_false])
    split
    · exact h
    · exact h.updateHost i _
  · exact h

/-- A listener that is a script logs the change before it runs. -/
theorem inform (h : e.Works e') (field : String) (v : Option Value) (automatic : Bool)
    (l : Listener) : e.Works (e'.inform field v automatic l) := by
  cases l with
  | query q => exact h.schedule (by simp [Task.announces_eq_false])
  | script label run => exact (h.event rfl).schedule (Task.announces_ofScript run)

/-- Looking for an opposite notes how it was found. -/
theorem negative (h : e.Works e') (i : HostId) (name : String) :
    e.Works (e'.negative i name).2 := by
  unfold Engine.negative
  split
  · exact h
  · next host _ =>
    refine (h.updateHost i _).record ?_
    rw [Resolver.resolve_eq]
    split
    · exact .nil
    · dsimp only
      split
      · exact .singleton rfl
      · exact .singleton rfl

/-- An action is noted when it is applied, and when nobody knows it. -/
theorem invoke (h : e.Works e') (i : HostId) (name : String) (args : Args) (skip : Bool)
    (report : Report) {next : Report → Task} (hnext : ∀ r, (next r).announces = false) :
    e.Works (e'.invoke i name args skip report next) := by
  unfold Engine.invoke
  split
  · exact h
  · split
    · exact (h.event rfl).schedule (List.forall_mem_cons.2 ⟨rfl, by simp [hnext]⟩)
    · exact (h.event rfl).schedule (by simp [hnext])

/-- A token is logged before it runs, or noted if it is skipped. -/
theorem dispatch (h : e.Works e') (i : HostId) (args : Args) (negate skip : Bool) (report : Report)
    {next : Report → Task} (hnext : ∀ r, (next r).announces = false) (t : Token Step) :
    e.Works (e'.dispatch i args negate skip report next t) := by
  unfold Engine.dispatch
  split
  · split
    · exact (h.event rfl).schedule (by simp [hnext])
    · refine (h.event rfl).schedule (List.forall_mem_append.2 ⟨Task.announces_ofScript _, ?_⟩)
      simp [hnext]
  · next name =>
    split
    · have hn := h.negative i name
      split
      · next heq =>
        rw [heq] at hn
        exact hn.invoke _ _ _ _ _ hnext
      · next heq =>
        rw [heq] at hn
        exact hn.schedule (by simp [hnext])
    · exact h.invoke _ _ _ _ _ hnext

theorem startRule (h : e.Works e') (i : HostId) (source : Option String) :
    e.Works (e'.startRule i source).2 := by
  unfold Engine.startRule
  split
  · exact h
  · exact (h.addQuery none).updateHost i _

/-! ### Chains -/

theorem conditionLeaf (h : e.Works e') (i : HostId) (field : String) (spec : Spec)
    (c : ConditionSpec) : e.Works (e'.conditionLeaf i field spec c).2 := by
  cases c with
  | value v => exact h
  | test t label => exact h
  | node n => exact h.nodeLeaf n

/-- A callback may be attached to a rule. -/
theorem attach (h : e.Works e') (f : Facet) (c : Callback) : e.Works (e'.attach f c).1 ∧
    ∀ t ∈ (e'.attach f c).2.2, t.announces = false := by
  obtain ⟨hadded, htask⟩ := h.addCallback (e'.root f.query) c
  exact ⟨hadded, by simpa [Engine.attach] using htask⟩

theorem setDirect (h : e.Works e') (q : QueryId) (failing : Bool) :
    e.Works (e'.setDirect q failing) := h.updateQuery _ _

theorem setPaused (h : e.Works e') (q : QueryId) (paused : Bool) :
    e.Works (e'.setPaused q paused) := h.updateQuery _ _

theorem addClause (h : e.Works e') (q : QueryId) : e.Works (e'.addClause q) := h.updateQuery _ _

/-- A list of actions may be attached to a rule. -/
theorem attachActions (h : e.Works e') (f : Facet) (p : Polarity) (actions : List (Token Step))
    (args : Args) : e.Works (e'.attachActions f p actions args).1 ∧
      ∀ t ∈ (e'.attachActions f p actions args).2.2, t.announces = false := by
  unfold Engine.attachActions
  refine attach ?_ _ _
  split
  · exact h.setDirect _ _
  · exact h.setDirect _ _
  · exact h

/-- The operations of a chain that take conditions read identifiers. -/
theorem conditionOp (h : e.Works e') (f : Facet) (op : ChainOp Step) :
    e.Works (e'.conditionOp f op).1 := by
  unfold Engine.conditionOp
  split
  · next c field =>
    have hleaf := (h.observe (Spec.isQuiet_read (field.getD formAlias))).conditionLeaf f.host
      (field.getD formAlias) (Spec.read (field.getD formAlias)).value c
    exact (hleaf.addCondition _ _ _).listenTo _ _
  · exact (h.observe (Spec.isQuiet_read _)).listenTo _ _
  · exact ((h.addQuery (some f.query)).addCondition _ _ _).listenTo f .form
  · exact h

/-- The operations of a chain that take junctions schedule nothing but callbacks and triggers. -/
theorem junctionOp (h : e.Works e') (f : Facet) (op : ChainOp Step) :
    e.Works (e'.junctionOp f op).1 ∧ ∀ t ∈ (e'.junctionOp f op).2.2, t.announces = false := by
  unfold Engine.junctionOp
  split
  · exact ⟨(h.observe (isQuiet_evaluate _ _)).event rfl, by simp⟩
  · exact ⟨h, by simp⟩
  · exact ⟨h.addClause _, by simp⟩
  · exact ⟨h, by simp⟩
  · exact h.attach _ _
  · exact h.attachActions _ _ _ _
  · exact ⟨h.setDirect _ _, by simp⟩
  · exact h.attachActions _ _ _ _
  · exact ⟨h, by simp⟩

/-- The operations of a chain schedule nothing but callbacks and triggers. -/
theorem chainOp (h : e.Works e') (f : Facet) (op : ChainOp Step) :
    e.Works (e'.chainOp f op).1 ∧ ∀ t ∈ (e'.chainOp f op).2.2, t.announces = false := by
  unfold Engine.chainOp
  split
  · exact ⟨h.keepRule _ _, by simp⟩
  · exact ⟨h, by simp [Task.announces_eq_false]⟩
  · exact ⟨h.setPaused _ _, by simp⟩
  · exact ⟨h.setPaused _ _, by simp⟩
  · split
    · exact ⟨h.conditionOp _ _, by simp⟩
    · exact h.junctionOp _ _

/-- A chain goes on with the rest of its operations, and answers with the rule at its end. -/
theorem chain (h : e.Works e') (f : Facet) (ops : List (ChainOp Step)) (name : Option String) :
    e.Works (e'.chain f ops name) := by
  cases ops with
  | cons op ops =>
    obtain ⟨hop, htasks⟩ := h.chainOp f op
    exact hop.schedule (List.forall_mem_append.2 ⟨htasks, by simp [Task.announces_eq_false]⟩)
  | nil =>
    cases name with
    | none => exact h.reply _
    | some name => exact (h.keepRule f name).reply _

/-! ### Steps -/

/-- The operations on a named query log what they evaluate. -/
theorem queryOp (h : e.Works e') (q : QueryId) (op : QueryOp Step) : e.Works (e'.queryOp q op) := by
  cases op with
  | condition node =>
    exact ((h.nodeLeaf node).addCondition _ _ _).schedule (by simp [Task.announces_eq_false])
  | or => exact (h.addClause q).schedule (by simp [Task.announces_eq_false])
  | trigger => exact h.schedule (by simp [Task.announces_eq_false])
  | pause => exact (h.setPaused q true).schedule (by simp [Task.announces_eq_false])
  | resume => exact (h.setPaused q false).schedule (by simp [Task.announces_eq_false])
  | negate failing => exact (h.setDirect q failing).schedule (by simp [Task.announces_eq_false])
  | callback label run =>
    obtain ⟨hadded, htask⟩ := h.addCallback q (.script label run)
    exact hadded.schedule (List.forall_mem_cons.2 ⟨htask, by simp [Task.announces_eq_false]⟩)
  | evaluate => exact (h.observe (isQuiet_evaluate _ _)).reply _
  | same other => exact (h.named other).reply _
  | parent other => exact (h.named other).reply _
  | listen node label =>
    have hn := h.nodeLeaf node
    simp only [Engine.queryOp]
    split
    · exact (hn.updateFlag _ _).reply _
    · exact hn.reply _
  | and => exact h.schedule (by simp [Task.announces_eq_false])
  | inspect => exact h.schedule (by simp [Task.announces_eq_false])
  | new => exact h
  | childOf parent => exact h
  | drop => exact h

/-- A step about a named query may add the query. -/
theorem queryStep (h : e.Works e') (name : String) (op : QueryOp Step) :
    e.Works (e'.queryStep name op) := by
  unfold Engine.queryStep
  split
  · exact ((h.addQuery none).nameQuery _ _).reply _
  · exact (((h.named _).addQuery (some _)).nameQuery _ _).reply _
  · exact (h.updateSession _).reply _
  · exact ((h.named name).schedule (by simp [Task.announces_eq_false])).queryOp _ _

/-- A step about the host logs what it reads. -/
theorem hostStep (h : e.Works e') (i : HostId) (host : Host) (s : Step) :
    e.Works (e'.hostStep i host s) := by
  unfold Engine.hostStep
  split
  · exact (h.startRule _ _).schedule (by simp [Task.announces_eq_false])
  · exact h.schedule (by simp [Task.announces_eq_false])
  · exact h.schedule (by simp [Task.announces_eq_false])
  · exact ((h.observe (Spec.isQuiet_read _)).subscribe _ _ _).reply _
  · exact h.schedule (by simp [Task.announces_eq_false])
  · exact (h.observe ((Spec.isQuiet_read _).bind fun _ => host.isQuiet_check _ _ _)).reply _
  · exact (h.observe ((Spec.isQuiet_read _).bind fun _ => host.isQuiet_valueOf _)).reply _
  · exact (h.observe (host.isQuiet_fields _ _)).reply _
  · exact (h.observe (host.isQuiet_fields _ _)).reply _
  · exact (h.observe (host.isQuiet_fields _ _)).reply _
  · exact h.schedule (by simp [Task.announces_eq_false])
  · refine (h.event rfl).schedule (List.forall_mem_append.2 ⟨?_, by simp [Task.announces_eq_false]⟩)
    exact List.forall_mem_map.2 fun _ _ => rfl
  · exact h.reply _
  · exact (h.negative _ _).reply _
  · exact h.reply _
  · exact h.reply _
  · exact h.reply _
  · exact (h.updateHost _ _).reply _
  · exact (h.updateHost _ _).reply _
  · split
    · exact (h.updateHost _ _).reply _
    · exact h.reply _
  · exact h.reply _
  · exact h
  · exact h
  · exact h
  · exact h

/-- A step is about a query, a flag, a rule or the host. -/
theorem performStep (h : e.Works e') (s : Step) : e.Works (e'.performStep s) := by
  unfold Engine.performStep
  split
  · exact h.queryStep _ _
  · exact (h.updateFlag _ _).schedule (by simp [Task.announces_eq_false])
  · exact (h.updateSession _).reply _
  · dsimp only
    split
    · exact (h.updateSession _).reply _
    · exact (h.updateSession _).reply _
  · split
    · exact (h.schedule (by simp [Task.announces_eq_false])).hostStep _ _ _
    · exact h.reply _

end Works

/-! ## Tasks -/

/-- The tasks of an action apply effects, write, and tell of what it does itself. -/
theorem announces_actionTasks (classes : ClassNames) (h : HostId) (args : Args) (skip : Bool)
    (a : Action) : ∀ t ∈ actionTasks classes h args skip a, t.announces = false := by
  cases a with
  | builtin a =>
    refine List.forall_mem_map.2 fun op hop => ?_
    cases op with
    | effect field e s => rfl
    | write field v => rfl
    | note d =>
      rw [BuiltinAction.eq_of_note_mem_plan hop]
      rfl
  | scripted a =>
    simp only [actionTasks]
    refine List.forall_mem_cons.2 ⟨rfl, List.forall_mem_append.2 ⟨?_, Task.announces_ofScript _⟩⟩
    split <;> simp [Task.announces_eq_false]

/-- A task that is no announcement itself makes none. -/
theorem works_perform (e : Engine) {t : Task} (ht : t.announces = false) :
    e.Works (e.perform t) := by
  have h := Works.refl e
  unfold perform
  split
  · exact h.performStep _
  · exact h.event rfl
  · exact h.reply _
  · exact h.reply _
  · exact h
  · exact h.chain _ _ _
  · exact h.trigger _
  · exact h
  · exact h.schedule (by simp [Task.announces_eq_false])
  · exact h.deliver _ _ _ _
  · split
    · exact h.reply _
    · exact h
  · exact h.dispatch _ _ _ _ _ (fun _ => rfl) _
  · exact h.schedule (List.forall_mem_append.2
      ⟨announces_actionTasks _ _ _ _ _, by simp [Task.announces_eq_false]⟩)
  · exact h.applyEffect _ _ _ _ _ _
  · exact h.write _ _ _ _
  · exact h.event ht
  · exact h.notify _ _ _
  · exact h
  · exact (h.schedule (by simp [Task.announces_eq_false])).inform _ _ _ _
  · exact h
  · exact (h.event rfl).schedule (by simp [Task.announces_eq_false])
  · split
    · exact h.schedule (by simp [Task.announces_eq_false])
    · exact h.schedule (by simp [Task.announces_eq_false])

/-- A run makes no announcements, as long as none are on the agenda. -/
theorem records_run {e : Engine} (h : ∀ t ∈ e.agenda, t.announces = false) (n : Nat) :
    e.Records (e.run n) := by
  have hrun : e.Records (e.run n) ∧ ∀ t ∈ (e.run n).agenda, t.announces = false := by
    induction n with
    | zero => exact ⟨.refl e, h⟩
    | succ n ih =>
      obtain ⟨hrecords, hquiet⟩ := ih
      rw [run_succ']
      cases ha : (e.run n).agenda with
      | nil => simpa [step, ha] using hrecords
      | cons t ts =>
        rw [ha] at hquiet
        obtain ⟨ht, hts⟩ := List.forall_mem_cons.1 hquiet
        have hworks := works_perform (e.run n).taken ht
        rw [← step_of_agenda ha] at hworks
        obtain ⟨tasks, hagenda, htasks⟩ := hworks.agenda
        have htaken : (e.run n).Records (e.run n).taken := ⟨⟨[], by simp [taken], .nil⟩, rfl, rfl⟩
        refine ⟨hrecords.trans (htaken.trans hworks.toRecords), ?_⟩
        rw [hagenda, agenda_taken ha]
        exact List.forall_mem_append.2 ⟨htasks, hts⟩
  exact hrun.1

end Engine

end FormRules
