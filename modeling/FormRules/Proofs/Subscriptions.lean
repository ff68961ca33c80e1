import FormRules.Proofs.Rounds

/-!
# Subscriptions

What a host keeps of its subscriptions and of what it was told (`Host.tidings`). Two kinds of tasks
touch that. A task that asks to be told of changes (`Engine.request`) puts a subscription behind
those that are there, to the fields that its identifier picks at that moment, and a notification
that does not come from a program leaves a mark. All other work on hosts, on their forms, tables and
rules, leaves both as they are.

So along a run the subscriptions of a host are those that it had, and then one for each request in
the order of the requests (`Engine.host?_run`).
-/

namespace FormRules

/-- The subscriptions of a host, and whether it was told of a user's change. -/
def Host.tidings (s : Host) : List Subscription × Bool := (s.subscriptions, s.changed)

/-! ## Requests -/

/-- That someone wants to be told of the changes of some fields of a host. -/
structure Request where
  host : HostId
  spec : Spec
  listener : Listener

/-- The subscription that a request is for: to the fields that the identifier picks now. The blank
identifier is for every field, later ones too. -/
def Request.subscription (r : Request) (host : Host) : Subscription where
  fields := if r.spec.isAll then none else some (host.resolve r.spec false).value
  listener := r.listener

/-- A subscription covers the fields that its identifier picked when it was made, or all of them. -/
theorem Request.covers_subscription (r : Request) (host : Host) (f : Handle) :
    (r.subscription host).covers f = true ↔
      r.spec = .all ∨ f ∈ (host.resolve r.spec false).value := by
  cases hspec : r.spec with
  | all => simp [subscription, Subscription.covers, hspec, Spec.isAll]
  | fields ss => simp [subscription, Subscription.covers, hspec, Spec.isAll]

/-- What a rule that listens to an identifier asks for. -/
def Facet.requestFor (f : Facet) (spec : Spec) : Option Request :=
  if spec.isAll then none else some ⟨f.host, spec.trigger, .query f.query⟩

/-- What an operation of a chain asks for, on a facet that takes conditions. -/
def Facet.request (f : Facet) : ChainOp Step → Option Request
  | .when _ field => f.requestFor (Spec.read (field.getD formAlias)).value
  | .on field => f.requestFor (Spec.read field).value
  | .openBracket => f.requestFor .form
  | _ => none

namespace Engine

/-- What a task asks for. -/
def request (e : Engine) : Task → Option Request
  | .step (.listen field label run) =>
    e.session.host.map fun h => ⟨h, (Spec.read field).value, .script label run⟩
  | .chain f (op :: _) _ => if f.kind = .condition then f.request op else none
  | _ => none

/-- The subscriptions of all hosts, and whether they were told of a user's change. -/
def tidings (e : Engine) : List (List Subscription × Bool) := e.hosts.map Host.tidings

/-- Where hosts are left alone, nobody is told anything. -/
theorem tidings_of_hosts {e e' : Engine} (h : e'.hosts = e.hosts) : e'.tidings = e.tidings :=
  congrArg (List.map Host.tidings) h

/-! ## Operations that leave hosts alone -/

section Hosts

variable (e : Engine)

@[simp] theorem hosts_record (events : List Event) : (e.record events).hosts = e.hosts := rfl

@[simp] theorem hosts_note (d : Diagnostic) : (e.note d).hosts = e.hosts := rfl

@[simp] theorem hosts_reply (a : Answer) : (e.reply a).hosts = e.hosts := rfl

@[simp] theorem hosts_schedule (tasks : List Task) : (e.schedule tasks).hosts = e.hosts := rfl

@[simp] theorem hosts_observe {α : Type} (x : Traced α) : (e.observe x).2.hosts = e.hosts := rfl

@[simp] theorem hosts_updateQuery (q : QueryId) (f : Query → Query) :
    (e.updateQuery q f).hosts = e.hosts := rfl

@[simp] theorem hosts_updateSession (f : Session → Session) :
    (e.updateSession f).hosts = e.hosts := rfl

@[simp] theorem hosts_updateFlag (ref : FlagRef) (f : Flag → Flag) :
    (e.updateFlag ref f).hosts = e.hosts := rfl

@[simp] theorem hosts_addQuery (parent : Option QueryId) :
    (e.addQuery parent).2.hosts = e.hosts := rfl

@[simp] theorem hosts_nameQuery (name : String) (q : QueryId) :
    (e.nameQuery name q).hosts = e.hosts := rfl

@[simp] theorem hosts_keepRule (f : Facet) (name : String) :
    (e.keepRule f name).hosts = e.hosts := rfl

@[simp] theorem hosts_addClause (q : QueryId) : (e.addClause q).hosts = e.hosts := rfl

@[simp] theorem hosts_setPaused (q : QueryId) (paused : Bool) :
    (e.setPaused q paused).hosts = e.hosts := rfl

@[simp] theorem hosts_setDirect (q : QueryId) (failing : Bool) :
    (e.setDirect q failing).hosts = e.hosts := rfl

@[simp] theorem hosts_named (name : String) : (e.named name).2.hosts = e.hosts := by
  unfold named
  split <;> rfl

@[simp] theorem hosts_nodeLeaf (n : NodeSpec) : (e.nodeLeaf n).2.hosts = e.hosts := by
  cases n with
  | query name => exact e.hosts_named name
  | flag name observable logged => rfl

@[simp] theorem hosts_addCondition (q : QueryId) (leaf : Leaf) (observable : Bool) :
    (e.addCondition q leaf observable).hosts = e.hosts := by
  unfold addCondition observeLeaf
  split
  · split <;> rfl
  · rfl

@[simp] theorem hosts_conditionLeaf (h : HostId) (field : String) (spec : Spec)
    (c : ConditionSpec) : (e.conditionLeaf h field spec c).2.hosts = e.hosts := by
  cases c with
  | node n => exact e.hosts_nodeLeaf n
  | _ => rfl

@[simp] theorem hosts_addCallback (q : QueryId) (c : Callback) :
    (e.addCallback q c).2.hosts = e.hosts := by
  unfold addCallback
  dsimp only
  split <;> rfl

@[simp] theorem hosts_attach (f : Facet) (c : Callback) : (e.attach f c).1.hosts = e.hosts :=
  e.hosts_addCallback _ c

@[simp] theorem hosts_attachActions (f : Facet) (p : Polarity) (actions : List (Token Step))
    (args : Args) : (e.attachActions f p actions args).1.hosts = e.hosts := by
  unfold attachActions
  rw [hosts_attach]
  split <;> rfl

@[simp] theorem hosts_junctionOp (f : Facet) (op : ChainOp Step) :
    (e.junctionOp f op).1.hosts = e.hosts := by
  unfold junctionOp
  split <;> simp

@[simp] theorem hosts_queryOp (q : QueryId) (op : QueryOp Step) :
    (e.queryOp q op).hosts = e.hosts := by
  cases op with
  | listen node label =>
    simp only [queryOp]
    split <;> simp
  | _ => simp [queryOp]

/-- Steps about named queries leave hosts alone. -/
@[simp] theorem hosts_queryStep (name : String) (op : QueryOp Step) :
    (e.queryStep name op).hosts = e.hosts := by
  unfold queryStep
  split <;> simp

/-- A call leaves hosts alone until what it schedules is performed. -/
@[simp] theorem hosts_deliver (q : QueryId) (i : Nat) (state skip : Bool) :
    (e.deliver q i state skip).hosts = e.hosts := by
  unfold deliver
  split
  · rfl
  · rfl
  · next host p actions args spent _ =>
    have hmark : (if p = .once ∧ state then
        e.updateQuery q fun s =>
          { s with callbacks := s.callbacks.set i (.attached host p actions args true) }
        else e).hosts = e.hosts := by
      split <;> rfl
    dsimp only
    generalize (if p = .once ∧ state then _ else e) = marked at hmark ⊢
    split
    · rfl
    · split
      · split
        · exact hmark
        · exact hmark
      · exact hmark

/-- So does telling a listener. -/
@[simp] theorem hosts_inform (field : String) (v : Option Value) (automatic : Bool) (l : Listener) :
    (e.inform field v automatic l).hosts = e.hosts := by
  cases l <;> rfl

end Hosts

/-! ## Operations that change hosts -/

section Tidings

variable (e : Engine)

/-- A change of one host concerns what that host was told. -/
theorem tidings_updateHost (h : HostId) {f : Host → Host}
    {g : List Subscription × Bool → List Subscription × Bool}
    (hf : ∀ s, (f s).tidings = g s.tidings) :
    (e.updateHost h f).tidings = e.tidings.modify h g := by
  refine List.ext_getElem? fun i => ?_
  simp only [tidings, updateHost, List.getElem?_map, List.getElem?_modify]
  cases e.hosts[i]? with
  | none => simp
  | some s => by_cases hi : h = i <;> simp [hi, hf]

/-- Changes of the form, the tables and the rules of a host. -/
theorem tidings_updateHost_same (h : HostId) {f : Host → Host}
    (hf : ∀ s, (f s).tidings = s.tidings) : (e.updateHost h f).tidings = e.tidings := by
  rw [tidings_updateHost (g := id) e h hf, List.modify_id]

/-- A rule is added to its host, and nobody subscribes yet. -/
@[simp] theorem tidings_startRule (h : HostId) (source : Option String) :
    (e.startRule h source).2.tidings = e.tidings := by
  unfold startRule
  split
  · rfl
  · exact tidings_updateHost_same _ _ fun s => rfl

/-- Looking for an opposite tells nobody anything. -/
@[simp] theorem tidings_negative (h : HostId) (name : String) :
    (e.negative h name).2.tidings = e.tidings := by
  unfold negative
  split
  · rfl
  · exact tidings_updateHost_same _ _ fun s => rfl

@[simp] theorem tidings_invoke (h : HostId) (name : String) (args : Args) (skip : Bool)
    (report : Report) (next : Report → Task) :
    (e.invoke h name args skip report next).tidings = e.tidings := by
  unfold invoke
  split
  · rfl
  · split <;> rfl

@[simp] theorem tidings_dispatch (h : HostId) (args : Args) (negate skip : Bool) (report : Report)
    (next : Report → Task) (t : Token Step) :
    (e.dispatch h args negate skip report next t).tidings = e.tidings := by
  unfold dispatch
  split
  · split <;> rfl
  · next name =>
    split
    · have hnegative := e.tidings_negative h name
      split
      · next heq =>
        rw [heq] at hnegative
        rw [tidings_invoke, hnegative]
      · next heq =>
        rw [heq] at hnegative
        exact hnegative
    · exact e.tidings_invoke h name args skip report next

/-- An effect tells nobody anything before its notification. -/
@[simp] theorem tidings_applyEffect (h : HostId) (field : String) (effect : Effect) (s : Switch)
    (skip answers : Bool) :
    (e.applyEffect h field effect s skip answers).tidings = e.tidings := by
  unfold applyEffect
  split
  · rfl
  · next host _ =>
    dsimp only
    split
    · exact tidings_updateHost_same _ _ fun s => rfl
    · exact tidings_updateHost_same _ _ fun s => rfl

/-- A write tells nobody anything before its notification. -/
@[simp] theorem tidings_write (h : HostId) (field : String) (v : Value) (automatic : Bool) :
    (e.write h field v automatic).tidings = e.tidings := by
  unfold write
  split
  · rfl
  · dsimp only
    split
    · exact tidings_updateHost_same _ _ fun s => rfl
    · exact tidings_updateHost_same _ _ fun s => rfl

/-- A notification leaves its mark, unless it comes from a program or has no fields. -/
theorem tidings_notify (h : HostId) (changed : List Handle) (automatic : Bool) :
    (e.notify h changed automatic).tidings =
      if changed ≠ [] ∧ automatic = false then e.tidings.modify h fun p => (p.1, true)
      else e.tidings := by
  have hnone : e.host? h = none → e.tidings.modify h (fun p => (p.1, true)) = e.tidings := by
    intro hnone
    refine List.modify_eq_self ?_
    simpa [tidings, host?] using hnone
  unfold notify
  split
  · next f rest host hhost =>
    cases automatic with
    | false => exact tidings_updateHost _ _ fun s => rfl
    | true => rfl
  · next hno =>
    split
    · next hcond =>
      cases hhost : e.host? h with
      | none => exact (hnone hhost).symm
      | some host =>
        obtain ⟨f, rest, rfl⟩ := List.exists_cons_of_ne_nil hcond.1
        exact (hno f rest host rfl hhost).elim
    · rfl

end Tidings

/-! ## What a task does -/

/-- The subscriptions of all hosts once a request is granted. -/
def grant (e : Engine) : Option Request → List (List Subscription × Bool)
  | none => e.tidings
  | some r =>
    match e.host? r.host with
    | none => e.tidings
    | some host => e.tidings.modify r.host fun p => (p.1 ++ [r.subscription host], p.2)

section Granting

variable {e e₁ : Engine}

/-- Before the subscription, hosts are left alone. -/
theorem tidings_subscribe (hhosts : e₁.hosts = e.hosts) (h : HostId) (spec : Spec) (l : Listener) :
    (e₁.subscribe h spec l).tidings = e.grant (some ⟨h, spec, l⟩) := by
  have hhost? : e₁.host? h = e.host? h := by rw [host?, host?, hhosts]
  unfold subscribe grant
  dsimp only
  rw [hhost?]
  cases e.host? h with
  | none => exact tidings_of_hosts hhosts
  | some host =>
    rw [← tidings_of_hosts hhosts]
    cases spec with
    | all => exact tidings_updateHost _ _ fun s => rfl
    | fields ss => exact tidings_updateHost _ _ fun s => rfl

/-- A rule that listens to an identifier makes the request that is read off it. -/
theorem tidings_listenTo (hhosts : e₁.hosts = e.hosts) (f : Facet) (spec : Spec) :
    (e₁.listenTo f spec).tidings = e.grant (f.requestFor spec) := by
  unfold listenTo Facet.requestFor
  split
  · exact tidings_of_hosts hhosts
  · exact tidings_subscribe hhosts _ _ _

/-- An operation that takes conditions makes the request that is read off it. -/
theorem tidings_conditionOp (e : Engine) (f : Facet) (op : ChainOp Step) :
    (e.conditionOp f op).1.tidings = e.grant (f.request op) := by
  unfold conditionOp
  split
  · exact tidings_listenTo (by simp) _ _
  · exact tidings_listenTo (by simp) _ _
  · exact tidings_listenTo (by simp) _ _
  · next hwhen hon hopen =>
    cases op with
    | when c field => exact absurd rfl (hwhen c field)
    | on field => exact absurd rfl (hon field)
    | openBracket => exact absurd rfl hopen
    | _ => rfl

/-- A chain makes the request of its first operation. -/
theorem tidings_chain (e : Engine) (f : Facet) (ops : List (ChainOp Step)) (name : Option String) :
    (e.chain f ops name).tidings = e.grant (e.request (.chain f ops name)) := by
  cases ops with
  | nil => cases name <;> rfl
  | cons op ops =>
    change (e.chainOp f op).1.tidings = e.grant (if f.kind = .condition then f.request op else none)
    obtain ⟨kind, h, q⟩ := f
    cases kind with
    | condition =>
      rw [if_pos rfl]
      cases op with
      | when c field => exact tidings_conditionOp e ⟨.condition, h, q⟩ (.when c field)
      | on field => exact tidings_conditionOp e ⟨.condition, h, q⟩ (.on field)
      | openBracket => exact tidings_conditionOp e ⟨.condition, h, q⟩ .openBracket
      | _ => rfl
    | junction =>
      cases op with
      | save name => rfl
      | trigger => rfl
      | pause => rfl
      | resume => rfl
      | _ => exact tidings_of_hosts (hosts_junctionOp e _ _)

/-- The other steps about a host make no request. -/
theorem tidings_hostStep (hhosts : e₁.hosts = e.hosts) (h : HostId) (host : Host) (s : Step)
    (hs : ∀ field label run, s ≠ .listen field label run) :
    (e₁.hostStep h host s).tidings = e.tidings := by
  have hupdate : ∀ f : Host → Host, (∀ s, (f s).tidings = s.tidings) →
      (e₁.updateHost h f).tidings = e.tidings :=
    fun f hf => (tidings_updateHost_same e₁ h hf).trans (tidings_of_hosts hhosts)
  cases s with
  | listen field label run => exact absurd rfl (hs field label run)
  | rule chain name source => exact (tidings_startRule e₁ h source).trans (tidings_of_hosts hhosts)
  | negative name => exact (tidings_negative e₁ h name).trans (tidings_of_hosts hhosts)
  | registerAction a =>
    exact hupdate (fun host => { host with actions := host.actions.insert _ _ }) fun _ => rfl
  | registerNegative action negative =>
    exact hupdate (fun host => { host with resolver := host.resolver.register _ _ }) fun _ => rfl
  | registerEvaluation pattern default t label =>
    simp only [hostStep]
    split
    · next entry _ =>
      exact hupdate (fun host => { host with evaluations := host.evaluations.insert entry })
        fun _ => rfl
    · exact tidings_of_hosts hhosts
  | _ => exact tidings_of_hosts hhosts

/-- A step makes the request that is read off it. -/
theorem tidings_performStep (e : Engine) (s : Step) :
    (e.performStep s).tidings = e.grant (e.request (.step s)) := by
  cases s with
  | query name op => exact tidings_of_hosts (hosts_queryStep e name op)
  | setFlag name value => rfl
  | dropRule name => rfl
  | dropHost =>
    simp only [performStep]
    split <;> rfl
  | listen field label run =>
    simp only [performStep, request]
    cases hsession : e.session.host with
    | none => rfl
    | some h =>
      cases hhost : e.host? h with
      | none => simp [grant, hhost, tidings, reply]
      | some host =>
        simp only [Option.bind_some, hhost, Option.map_some]
        exact tidings_subscribe rfl _ _ _
  | _ =>
    simp only [performStep]
    split
    · exact tidings_hostStep rfl _ _ _ (by simp)
    · rfl

/-- A task other than a notification grants what it asks for, and leaves no mark. -/
theorem tidings_perform (e : Engine) {t : Task} (ht : ∀ h changed automatic,
    t ≠ .notify h changed automatic) : (e.perform t).tidings = e.grant (e.request t) := by
  cases t with
  | notify h changed automatic => exact absurd rfl (ht h changed automatic)
  | step s => exact tidings_performStep e s
  | chain f ops name => exact tidings_chain e f ops name
  | trigger q => exact tidings_of_hosts (hosts_trigger e q)
  | deliver q i state skip => exact tidings_of_hosts (hosts_deliver e q i state skip)
  | effect h field x s skip answers => exact tidings_applyEffect e h field x s skip answers
  | write h field v automatic => exact tidings_write e h field v automatic
  | inform ls field v automatic =>
    cases ls with
    | nil => rfl
    | cons l ls => exact tidings_of_hosts (hosts_inform _ field v automatic l)
  | dispatch h ts args negate skip report answers =>
    cases ts with
    | nil => cases answers <;> rfl
    | cons t ts => exact tidings_dispatch e h args negate skip report _ t
  | round q state skip pending => cases pending <;> rfl
  | flagSet ls =>
    rcases ls with _ | ⟨l, ls⟩
    · rfl
    · cases l with
      | log label => rfl
      | query q =>
        change (if e.queryInUse q then _ else _ : Engine).tidings = e.tidings
        split <;> rfl
  | _ => rfl

end Granting

/-! ## Subscriptions along a run -/

/-- The subscription to fields of `h` that the next task makes. -/
def enrols (e : Engine) (h : HostId) : Option Subscription :=
  match e.agenda.head?.bind e.request, e.host? h with
  | some r, some host => if r.host = h then some (r.subscription host) else none
  | _, _ => none

/-- What `f` sees of the first `n` tasks, in their order. -/
def gather {α : Type} (f : Engine → Option α) : Nat → Engine → List α
  | 0, _ => []
  | n + 1, e => (f e).toList ++ gather f n e.step

/-- What is gathered along a run is what its stretches gather. -/
theorem gather_add {α : Type} (f : Engine → Option α) (m n : Nat) (e : Engine) :
    gather f (m + n) e = gather f m e ++ gather f n (e.run m) := by
  induction m generalizing e with
  | zero => simp [gather, run]
  | succ m ih => rw [Nat.succ_add, gather, ih, gather, List.append_assoc, run_succ]

/-- The last moment of a run is gathered last. -/
theorem gather_succ' {α : Type} (f : Engine → Option α) (n : Nat) (e : Engine) :
    gather f (n + 1) e = gather f n e ++ (f (e.run n)).toList := by
  rw [gather_add, gather, gather, List.append_nil]

/-- What is gathered was found at some moment of the run. -/
theorem mem_gather {α : Type} {f : Engine → Option α} {n : Nat} {e : Engine} {x : α} :
    x ∈ gather f n e ↔ ∃ j < n, f (e.run j) = some x := by
  induction n with
  | zero => simp [gather]
  | succ n ih =>
    rw [gather_succ', List.mem_append, ih, Option.mem_toList, Nat.exists_lt_succ_right]

theorem gather_eq_nil {α : Type} {f : Engine → Option α} {n : Nat} {e : Engine}
    (h : ∀ j < n, f (e.run j) = none) : gather f n e = [] := by
  refine List.eq_nil_iff_forall_not_mem.2 fun x hx => ?_
  obtain ⟨j, hj, hx⟩ := mem_gather.1 hx
  simp [h j hj] at hx

/-- Whether the next task tells `h` of a change that does not come from a program. -/
def marks (e : Engine) (h : HostId) : Bool :=
  match e.agenda with
  | .notify i (_ :: _) false :: _ => i == h
  | _ => false

variable {e : Engine} {h : HostId} {host : Host}

/-- A mark is left by a notification that does not come from a program and has a field to tell of.
-/
theorem marks_eq_true_iff : e.marks h = true ↔
    ∃ f fs, e.agenda.head? = some (.notify h (f :: fs) false) := by
  unfold marks
  refine ⟨fun hmarks => ?_, ?_⟩
  · split at hmarks
    · next i f fs rest ha => exact ⟨f, fs, by rw [ha, ← beq_iff_eq.1 hmarks]; rfl⟩
    · simp at hmarks
  · rintro ⟨f, fs, hhead⟩
    obtain ⟨rest, ha⟩ := List.head?_eq_some_iff.1 hhead
    simp [ha]

/-- A subscription that the next task makes is the one that it asks for. -/
theorem enrols_eq_some_iff {s : Subscription} : e.enrols h = some s ↔
    ∃ r t, e.agenda.head?.bind e.request = some r ∧ r.host = h ∧ e.host? h = some t ∧
      s = r.subscription t := by
  unfold enrols
  cases hr : e.agenda.head?.bind e.request with
  | none => simp
  | some r =>
    cases hhost : e.host? h with
    | none => simp
    | some t =>
      by_cases heq : r.host = h
      · simp [heq, eq_comm]
      · simp [heq]

theorem tidings_host? : e.tidings[h]? = (e.host? h).map Host.tidings := List.getElem?_map

/-- What a request adds to the subscriptions of a host. -/
theorem getElem?_grant (hhost : e.host? h = some host) {t : Task} {ts : List Task}
    (ha : e.agenda = t :: ts) : (e.grant (e.request t))[h]? =
      some (host.subscriptions ++ (e.enrols h).toList, host.changed) := by
  have hold : e.tidings[h]? = some host.tidings := by rw [tidings_host?, hhost, Option.map_some]
  unfold enrols
  rw [ha, List.head?_cons, Option.bind_some]
  cases e.request t with
  | none => simpa [grant, Host.tidings] using hold
  | some r =>
    cases hr : e.host? r.host with
    | none =>
      have hne : r.host ≠ h := fun heq => by simp [heq, hhost] at hr
      simp [grant, hr, hhost, hne, hold, Host.tidings]
    | some other =>
      by_cases heq : r.host = h
      · obtain rfl : other = host := by simpa [heq, hhost] using hr.symm
        simp [grant, hhost, heq, hold, Host.tidings]
      · simp [grant, hr, hhost, heq, hold, Host.tidings]

/-- What the next task does to the subscriptions of a host, and to its mark. -/
theorem host?_step (hhost : e.host? h = some host) : ∃ t, e.step.host? h = some t ∧
    t.subscriptions = host.subscriptions ++ (e.enrols h).toList ∧
    t.changed = (host.changed || e.marks h) := by
  suffices htold : e.step.tidings[h]? =
      some (host.subscriptions ++ (e.enrols h).toList, host.changed || e.marks h) by
    rw [tidings_host?] at htold
    obtain ⟨t, ht, htidings⟩ := Option.map_eq_some_iff.1 htold
    exact ⟨t, ht, Prod.mk.inj htidings⟩
  have hold : e.tidings[h]? = some host.tidings := by rw [tidings_host?, hhost, Option.map_some]
  cases ha : e.agenda with
  | nil => simpa [step, ha, enrols, marks, Host.tidings] using hold
  | cons t ts =>
    have htaken : e.taken.tidings = e.tidings := rfl
    rw [step_of_agenda ha]
    by_cases hnotify : ∃ i changed automatic, t = .notify i changed automatic
    · obtain ⟨i, changed, automatic, rfl⟩ := hnotify
      have henrols : e.enrols h = none := by simp [enrols, ha, request]
      rw [perform, tidings_notify, htaken, henrols]
      cases changed with
      | nil => simpa [marks, ha, Host.tidings] using hold
      | cons f fs =>
        cases automatic with
        | true => simpa [marks, ha, Host.tidings] using hold
        | false =>
          by_cases hi : i = h
          · simp [marks, ha, hi, hold, Host.tidings]
          · simp [marks, ha, hi, hold, Host.tidings]
    · have hmarks : e.marks h = false := by
        unfold marks
        split
        · next i f fs rest heq =>
          rw [ha] at heq
          exact absurd ⟨i, f :: fs, false, (List.cons.inj heq).1⟩ hnotify
        · rfl
      rw [tidings_perform _ fun i changed automatic heq => hnotify ⟨i, changed, automatic, heq⟩,
        hmarks, Bool.or_false]
      exact getElem?_grant hhost ha

/-- Along a run the subscriptions of a host are those that it had, and then one for each request for
its fields. It is marked exactly if it was marked or was told of a change that does not come from a
program. -/
theorem host?_run (hhost : e.host? h = some host) (n : Nat) : ∃ t, (e.run n).host? h = some t ∧
    t.subscriptions = host.subscriptions ++ gather (·.enrols h) n e ∧
    (t.changed = true ↔ host.changed = true ∨ ∃ j < n, (e.run j).marks h = true) := by
  induction n with
  | zero => exact ⟨host, hhost, by simp [gather], by simp⟩
  | succ n ih =>
    obtain ⟨t, ht, hsubs, hchanged⟩ := ih
    obtain ⟨u, hu, hsubs', hchanged'⟩ := host?_step ht
    refine ⟨u, by rw [run_succ', hu], ?_, ?_⟩
    · rw [hsubs', hsubs, gather_succ', List.append_assoc]
    · rw [hchanged', Bool.or_eq_true, hchanged, or_assoc, Nat.exists_lt_succ_right]

end Engine

end FormRules
