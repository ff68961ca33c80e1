import FormRules.Proofs.Sheets

/-!
# Turns of a run on a sheet

What a task can do in a run on an orderly sheet is said once here (`Engine.Turn`, `Engine.turn`).
Most tasks only put others in their place (`Task.Unfolds`). An effect or a write changes the form
and reports it, a trigger may start a round, and a chain adds conditions or attachments to the
latest rule.
-/

namespace FormRules

open BuiltinAction

/-- Tasks after which nothing follows. -/
def Task.IsIdle : Task → Prop
  | .ran _ | .answer _ | .hold .. | .log _ | .round _ _ _ [] | .dispatch _ [] .. | .notify _ [] _
  | .inform [] .. => True
  | _ => False

/-- The task of an operation of a plan. -/
def Operation.task (skip : Bool) : Operation → Task
  | .effect field e s => .effect 0 field e s skip false
  | .write field v => .write 0 field v true
  | .note d => .log (.diagnostic d)

/-- A task is replaced by others, and neither the form nor the rules change, up to conditions. -/
inductive Task.Unfolds (S : Sheet) (e : Engine) : Task → List Task → Prop
  | idle {t : Task} (h : t.IsIdle) : Unfolds S e t []
  | unmoved {q : QueryId} : Unfolds S e (.trigger q) []
  | round {q : QueryId} {b skip : Bool} {i : Nat} {rest : List Nat} :
      Unfolds S e (.round q b skip (i :: rest)) [.deliver q i b skip, .round q b skip rest]
  | deliver {q : QueryId} {i : Nat} {b skip : Bool} {r : SwitchRule} {a : Attachment}
      (hr : S.rules[q]? = some r) (ha : r.attachments[i]? = some a) :
      Unfolds S e (.deliver q i b skip)
        [.dispatch 0 a.tokens a.args (b == a.failing) skip {} false]
  | dispatch {name : String} {tokens : List (Token Step)} {args : Args} {negate skip : Bool}
      {report report' : Report} {answers : Bool} {a : BuiltinAction} (hswitch : a.isSwitch = true)
      (ha : ∀ x on, (x, on) ∈ a.switches args ↔ (x, on != negate) ∈ switchesOf name args) :
      Unfolds S e (.dispatch 0 (.named name :: tokens) args negate skip report answers)
        [.perform 0 (.builtin a) args skip, .dispatch 0 tokens args negate skip report' answers]
  | perform {a : BuiltinAction} {args : Args} {skip : Bool} (hswitch : a.isSwitch = true) :
      Unfolds S e (.perform 0 (.builtin a) args skip)
        ((a.plan {} args).map (Operation.task skip) ++ [.hold [0] []])
  | notify {h : Handle} {rest : List Handle} {automatic : Bool} {listeners : List Listener}
      {field : String} {v : Option Value} (hlisteners : ∀ l ∈ listeners,
        ∃ q < e.queries.length, l = .query q ∧ S.Watches q h) :
      Unfolds S e (.notify 0 (h :: rest) automatic)
        [.inform listeners field v automatic, .notify 0 rest automatic]
  | inform {q : QueryId} {listeners : List Listener} {field : String} {v : Option Value}
      {automatic : Bool} : Unfolds S e (.inform (.query q :: listeners) field v automatic)
        [.trigger q, .hold [] [q], .inform listeners field v automatic]
  | write {field : String} {v : Value} {automatic : Bool} :
      Unfolds S e (.step (.write field v automatic))
        [.write 0 field v automatic, .answer .nothing, .hold [0] []]
  | condition {f f' : Facet} {op : ChainOp Step} {ops : List (ChainOp Step)} {name : Option String}
      {r : SwitchRule} (hq : f'.query = f.query) (hh : f'.host = f.host)
      (hr : S.rules[f.query]? = some r)
      (hops : r.Continues (e.callbacks f.query).length f'.kind ops) :
      Unfolds S e (.chain f (op :: ops) name) [.chain f' ops name]
  | close {f : Facet} {name : Option String} : Unfolds S e (.chain f [] name) []

/-- The actions of an orderly sheet are switches. -/
theorem Sheet.IsOrderly.mem_switchNames {S : Sheet} (hS : S.IsOrderly) {r : SwitchRule}
    {a : Attachment} (hr : r ∈ S.rules) (ha : a ∈ r.attachments) {name : String}
    (hname : .named name ∈ a.tokens) : name ∈ switchNames := by
  have hmem : name ∈ a.names := by simpa [Attachment.tokens] using hname
  exact hS.names r hr ⟨a.failing, name, a.args⟩
    (List.mem_flatMap.2 ⟨a, ha, List.mem_map.2 ⟨name, hmem, rfl⟩⟩)

/-- An attachment runs on every result, by its opposites where the result is not its own. -/
theorem Attachment.negates?_polarity (a : Attachment) (b : Bool) :
    a.polarity.negates? b = some (b == a.failing) := by
  unfold polarity
  cases a.failing <;> cases b <;> rfl

namespace Engine

/-- The queries keep their parents, callbacks and last results. -/
structure Marked (e e' : Engine) : Prop where
  length : e'.queries.length = e.queries.length
  parent : ∀ q, (e'.queryAt q).parent = (e.queryAt q).parent
  callbacks : ∀ q, e'.callbacks q = e.callbacks q
  last : ∀ q, e'.last? q = e.last? q

/-- The engine after a task that was taken from the agenda, with `ts` below. -/
inductive Turn (S : Sheet) (e : Engine) (ts : List Task) : Task → Engine → Prop
  | unfold {t : Task} {news : List Task} {e' : Engine} {host host' : Host}
      (h : t.Unfolds S e news) (hmarked : e.Marked e') (hhost : e.hosts = [host])
      (hhost' : e'.hosts = [host']) (hfollows : host'.Follows S e'.queries.length)
      (hform : host'.form = host.form) (ha : e'.agenda = news ++ ts) : Turn S e ts t e'
  | effect {field : String} {x : Effect} {on skip answers : Bool} {e' : Engine} {host host' : Host}
      {more : List Task} (hmarked : e.Marked e') (hhost : e.hosts = [host])
      (hhost' : e'.hosts = [host']) (hfollows : host'.Follows S e'.queries.length)
      (hform : host'.form = (host.form.apply (S.form.pick (Spec.lenient field)) x (.ofBool on)).1)
      (hmore : ∀ t ∈ more, ∃ a, t = .answer a)
      (ha : e'.agenda = .notify 0
        (host.form.apply (S.form.pick (Spec.lenient field)) x (.ofBool on)).2 true :: (more ++ ts)) :
      Turn S e ts (.effect 0 field x (.ofBool on) skip answers) e'
  | write {field : String} {v : Value} {automatic : Bool} {e' : Engine} {host host' : Host}
      (hmarked : e.Marked e') (hhost : e.hosts = [host])
      (hhost' : e'.hosts = [host']) (hfollows : host'.Follows S e'.queries.length)
      (hform : host'.form = (host.form.write (host.form.pick (Spec.lenient field)) v).1)
      (ha : e'.agenda = .notify 0 (host.form.write (host.form.pick (Spec.lenient field)) v).2
        automatic :: ts) :
      Turn S e ts (.write 0 field v automatic) e'
  | fire {q : QueryId} {b skip : Bool} {e' : Engine}
      (length : e'.queries.length = e.queries.length)
      (parent : ∀ p, (e'.queryAt p).parent = (e.queryAt p).parent)
      (callbacks : ∀ p, e'.callbacks p = e.callbacks p)
      (last : ∀ p, e'.last? p = if p = q then some b else e.last? p) (hhosts : e'.hosts = e.hosts)
      (ha : e'.agenda = .round q b skip (List.range (e.callbacks q).length) :: ts) :
      Turn S e ts (.trigger q) e'
  | attach {f : Facet} {ops : List (ChainOp Step)} {name : Option String} {r : SwitchRule}
      {a : Attachment} {e' : Engine} {first : Task}
      (hr : S.rules[f.query]? = some r)
      (hget : r.attachments[(e.callbacks f.query).length]? = some a)
      (hops : ops = (r.attachments.drop ((e.callbacks f.query).length + 1)).map Attachment.op)
      (length : e'.queries.length = e.queries.length)
      (parent : ∀ p, (e'.queryAt p).parent = (e.queryAt p).parent)
      (callbacks : ∀ p, e'.callbacks p =
        if p = f.query then e.callbacks p ++ [a.callback] else e.callbacks p)
      (last : ∀ p, e'.last? p = e.last? p) (hhosts : e'.hosts = e.hosts)
      (hfirst : (e.last? f.query = none ∧ first = .trigger f.query) ∨
        ∃ b, e.last? f.query = some b ∧
          first = .deliver f.query (e.callbacks f.query).length b true)
      (ha : e'.agenda = first :: .chain ⟨.junction, f.host, f.query⟩ ops name :: ts) :
      Turn S e ts (.chain f (a.op :: ops) name) e'
  | start {r : SwitchRule} {name : Option String} {e' : Engine} {host host' : Host}
      (hr : S.rules[e.queries.length]? = some r)
      (length : e'.queries.length = e.queries.length + 1)
      (queries : ∀ p, e'.queryAt p = e.queryAt p) (hhost : e.hosts = [host])
      (hhost' : e'.hosts = [host']) (hfollows : host'.Follows S e'.queries.length)
      (hform : host'.form = host.form)
      (ha : e'.agenda = .chain ⟨.condition, 0, e.queries.length⟩ r.chain name :: .hold [0] [] :: ts) :
      Turn S e ts (.step (.rule r.chain name none)) e'

/-- An engine with the same queries has them marked in the same way. -/
theorem Marked.of_queryAt {e e' : Engine} (length : e'.queries.length = e.queries.length)
    (h : ∀ q, e'.queryAt q = e.queryAt q) : e.Marked e' where
  length := length
  parent q := by rw [h]
  callbacks q := congrArg Query.callbacks (h q)
  last q := congrArg Query.last (h q)

theorem Marked.of_queries {e e' : Engine} (h : e'.queries = e.queries) : e.Marked e' :=
  .of_queryAt (by rw [h]) fun q => by rw [queryAt, query?, h]; rfl

variable {S : Sheet} {e : Engine} {t : Task} {ts news : List Task}

/-- A task that changes neither queries nor hosts. -/
theorem IsOn.unfold (h : e.IsOn S) {e' : Engine} (hunfolds : t.Unfolds S e news)
    (hq : e'.queries = e.queries) (hh : e'.hosts = e.hosts) (ha : e'.agenda = news ++ ts) :
    e.Turn S ts t e' := by
  obtain ⟨host, hhost, hfollows⟩ := h.host
  exact .unfold hunfolds (.of_queries hq) hhost (hh.trans hhost) (hq ▸ hfollows) rfl ha

/-- The host of a sheet is its only one. -/
theorem IsOn.host?_eq (h : e.IsOn S) {i : HostId} {host : Host} (hi : e.host? i = some host) :
    i = 0 ∧ e.hosts = [host] ∧ host.Follows S e.queries.length := by
  obtain ⟨x, hx, hfollows⟩ := h.host
  rw [host?, hx] at hi
  cases i with
  | zero =>
    obtain rfl : x = host := Option.some.inj hi
    exact ⟨rfl, hx, hfollows⟩
  | succ i => simp at hi

theorem hosts_updateHost {host : Host} (h : e.hosts = [host]) (f : Host → Host) :
    (e.updateHost 0 f).hosts = [f host] := by
  simp [updateHost, h]

theorem host?_of_hosts {host : Host} (h : e.hosts = [host]) : e.host? 0 = some host := by
  simp [host?, h]

/-! ## Triggers -/

/-- A round that starts is to deliver to all attachments, in their order. -/
theorem turn_startRound (ha : e.agenda = t :: ts) {q : QueryId} (hq : q < e.queries.length)
    (b skip : Bool) : e.Turn S ts (.trigger q) (e.taken.startRound q b skip) := by
  obtain ⟨s, hs⟩ : ∃ s, e.query? q = some s := ⟨_, List.getElem?_eq_getElem hq⟩
  have hquery : ∀ p, (e.taken.startRound q b skip).query? p =
      if q = p then (e.query? p).map fun s => { s with last := some b } else e.query? p :=
    fun p => query?_startRound _ _ _ _ _
  have hagenda : (e.taken.startRound q b skip).agenda =
      .round q b skip (List.range (e.callbacks q).length) :: ts :=
    congrArg (List.cons _) (agenda_taken ha)
  refine .fire (by simp [startRound, schedule, Engine.note, Engine.record, Engine.updateQuery, taken])
    (fun p => ?_) (fun p => ?_) (fun p => ?_) rfl hagenda
  · rw [queryAt, queryAt, hquery]
    split
    · cases e.query? p <;> rfl
    · rfl
  · rw [callbacks, callbacks, hquery]
    split
    · cases e.query? p <;> rfl
    · rfl
  · rw [last?, last?, queryAt, queryAt, hquery]
    by_cases hp : q = p
    · subst hp
      simp [hs]
    · have hp' : p ≠ q := fun heq => hp heq.symm
      simp [hp, hp']

/-- A trigger starts a round if the result has changed. -/
theorem turn_trigger (h : e.IsOn S) {q : QueryId} (ha : e.agenda = .trigger q :: ts) :
    e.Turn S ts (.trigger q) e.step := by
  have hstep : e.step = e.taken.trigger q := step_of_agenda ha
  have hroot : e.taken.root q = q := root_of_parent fun s hs => (h.queries q s hs).parent
  have hlt : e.Follows S (.trigger q) := h.tasks _ (ha ▸ List.mem_cons_self)
  obtain ⟨s, hs⟩ : ∃ s, e.query? q = some s := ⟨_, List.getElem?_eq_getElem hlt⟩
  have hs' : e.taken.query? q = some s := hs
  have hawake : e.taken.isPaused q = false := by
    simp [isPaused, hs', (h.plain.queries q s hs).awake]
  rw [hstep, trigger_eq, hroot, if_neg (by simp [hawake])]
  split
  · exact h.unfold .unmoved rfl rfl (agenda_taken ha)
  · exact turn_startRound ha hlt _ _

/-! ## Deliveries and dispatches -/

/-- The callbacks of a rule are its attachments, as far as these were made. -/
theorem IsOn.exists_attachment (h : e.IsOn S) {q : QueryId} {i : Nat}
    (hi : i < (e.callbacks q).length) : ∃ r a, S.rules[q]? = some r ∧
      r.attachments[i]? = some a ∧ (e.callbacks q)[i]? = some a.callback := by
  cases hs : e.query? q with
  | none => simp [callbacks, hs] at hi
  | some s =>
    have hcallbacks : e.callbacks q = s.callbacks := by simp [callbacks, hs]
    obtain ⟨r, hr, hprefix⟩ := (h.queries q s hs).rule
    rw [hcallbacks] at hi ⊢
    have hget := hprefix.getElem hi
    have hlt : i < r.attachments.length := by
      have hle := hprefix.length_le
      rw [List.length_map] at hle
      omega
    refine ⟨r, r.attachments[i], hr, List.getElem?_eq_getElem hlt, ?_⟩
    rw [List.getElem?_eq_getElem hi, hget, List.getElem_map]

/-- A delivery has its attachment dispatched. -/
theorem turn_deliver (h : e.IsOn S) {q : QueryId} {i : Nat} {b skip : Bool}
    (ha : e.agenda = .deliver q i b skip :: ts) : e.Turn S ts (.deliver q i b skip) e.step := by
  have hlt : e.Follows S (.deliver q i b skip) := h.tasks _ (ha ▸ List.mem_cons_self)
  obtain ⟨r, a, hr, hattachment, hcallback⟩ := h.exists_attachment hlt
  have hcallback' : ((e.taken.query? q).getD {}).callbacks[i]? = some a.callback := hcallback
  have hstep : e.step =
      e.taken.schedule [.dispatch 0 a.tokens a.args (b == a.failing) skip {} false] := by
    have honce : a.polarity ≠ .once := by
      unfold Attachment.polarity
      split <;> simp
    rw [step_of_agenda ha, perform, Engine.deliver, hcallback', Attachment.callback]
    simp [honce, Attachment.negates?_polarity, h.plain.taken.hostInUse]
  rw [hstep]
  exact h.unfold (.deliver hr hattachment) rfl rfl (congrArg (List.cons _) (agenda_taken ha))

/-- The action of a known name is performed. -/
theorem invoke_eq {host : Host} (hhost : e.host? 0 = some host) {name : String} {a : BuiltinAction}
    (ha : host.actions.get? name = some (.builtin a)) (args : Args) (skip : Bool) (report : Report)
    (next : Report → Task) : e.invoke 0 name args skip report next =
      (e.note (.applyingAction name skip)).schedule
        [.perform 0 (.builtin a) args skip, next (report.addApplied name)] := by
  simp only [invoke, hhost, ha]

/-- What looking for an opposite does to the host. -/
theorem negative_eq {host : Host} (hhost : e.host? 0 = some host) (name : String) :
    e.negative 0 name = ((host.resolver.resolve name host.actions.contains).1,
      (e.updateHost 0 fun x =>
        { x with resolver := (host.resolver.resolve name host.actions.contains).2.1 }).record
        ((host.resolver.resolve name host.actions.contains).2.2.map .diagnostic)) := by
  simp only [negative, hhost]

/-- Dispatching a token has the switch of its name performed, or that of the opposite. -/
theorem turn_dispatch (hS : S.IsOrderly) (h : e.IsOn S) {i : HostId} {tokens : List (Token Step)}
    {args : Args} {negate skip : Bool} {report : Report} {answers : Bool}
    (ha : e.agenda = .dispatch i tokens args negate skip report answers :: ts) :
    e.Turn S ts (.dispatch i tokens args negate skip report answers) e.step := by
  have hfollows : e.Follows S (.dispatch i tokens args negate skip report answers) :=
    h.tasks _ (ha ▸ List.mem_cons_self)
  obtain ⟨rfl, q, r, hr, a, hattachment, rfl, htokens⟩ := hfollows
  cases tokens with
  | nil =>
    have hidle : (Task.dispatch 0 [] a.args negate skip report answers).Unfolds S e [] :=
      .idle trivial
    refine h.unfold hidle ?_ ?_ ?_
    all_goals
      rw [step_of_agenda ha, perform]
      split
    · rfl
    · rfl
    · rfl
    · rfl
    · exact agenda_taken ha
    · exact agenda_taken ha
  | cons token tokens =>
    have htoken : token ∈ a.tokens := htokens List.mem_cons_self
    obtain ⟨name, hname, rfl⟩ := List.mem_map.1 htoken
    have hswitchName := hS.mem_switchNames (List.mem_of_getElem? hr) hattachment htoken
    obtain ⟨b, x, hb, hbname, hx, hswitch, hflip⟩ := partner_lookup name hswitchName
    obtain ⟨host, hhosts, hhostFollows⟩ := h.host
    have hhost : e.taken.host? 0 = some host := host?_of_hosts hhosts
    have hactions : host.actions = Config.builtin.actions := (h.plain.host?_eq hhost).2.actions
    rw [step_of_agenda ha, perform, Engine.dispatch]
    cases negate with
    | false =>
      have hget : host.actions.get? name = some (.builtin x) := by
        rw [hactions, Config.get?_builtin name hswitchName, hx]
        rfl
      rw [if_neg (by simp), invoke_eq hhost hget]
      refine h.unfold (.dispatch hswitch fun y on => ?_) rfl rfl
        (congrArg (fun ts => _ :: _ :: ts) (agenda_taken ha))
      simp [switchesOf, hx]
    | true =>
      obtain ⟨hanswer, hpaired⟩ := Resolver.paired_resolve hhostFollows.resolver hswitchName
      rw [← hactions] at hanswer hpaired
      have hget : host.actions.get? b = some (.builtin x.flip) := by
        rw [hactions, Config.get?_builtin b hbname, hflip]
        rfl
      rw [if_pos rfl, negative_eq hhost, hanswer, hb]
      dsimp only
      have hhosts' := hosts_updateHost (show e.taken.hosts = [host] from hhosts) fun x =>
        { x with resolver := (host.resolver.resolve name host.actions.contains).2.1 }
      rw [invoke_eq (e := Engine.record (e.taken.updateHost 0 _) _) (host?_of_hosts hhosts') hget]
      refine .unfold (.dispatch (isSwitch_flip hswitch) fun y on => ?_) (.of_queries rfl) hhosts
        hhosts' ⟨hhostFollows.config, hhostFollows.fields, hhostFollows.kinds, hpaired,
          hhostFollows.subscriptions⟩ rfl (congrArg (fun ts => _ :: _ :: ts) (agenda_taken ha))
      rw [switches_flip hswitch]
      simp [switchesOf, hx]

set_option maxRecDepth 100000 in
theorem classes_builtin : Config.builtin.classes = {} := rfl

/-- A switch has its effects applied. -/
theorem turn_perform (h : e.IsOn S) {i : HostId} {action : Action} {args : Args} {skip : Bool}
    (ha : e.agenda = .perform i action args skip :: ts) :
    e.Turn S ts (.perform i action args skip) e.step := by
  have hfollows : e.Follows S (.perform i action args skip) := h.tasks _ (ha ▸ List.mem_cons_self)
  obtain ⟨rfl, r, hr, c, hc, rfl, a, rfl, hswitch, -⟩ := hfollows
  obtain ⟨host, hhosts, hhostFollows⟩ := h.host
  have hclasses : ((e.taken.host? 0).map (·.config.classes)).getD {} = {} := by
    rw [host?_of_hosts (show e.taken.hosts = [host] from hhosts), Option.map_some, Option.getD_some,
      hhostFollows.config, classes_builtin]
  have htasks : actionTasks {} 0 c.args skip (.builtin a) =
      (a.plan {} c.args).map (Operation.task skip) :=
    List.map_congr_left fun operation _ => by cases operation <;> rfl
  have hstep : e.step = e.taken.schedule
      ((a.plan {} c.args).map (Operation.task skip) ++ [.hold [0] []]) := by
    rw [step_of_agenda ha, perform, hclasses, htasks]
  rw [hstep]
  exact h.unfold (.perform hswitch) rfl rfl (congrArg (_ ++ ·) (agenda_taken ha))

/-! ## Changes of the form -/

/-- An effect switches its property on the fields that it addresses. -/
theorem turn_effect (hS : S.IsOrderly) (h : e.IsOn S) {i : HostId} {field : String} {x : Effect}
    {s : Switch} {skip answers : Bool} (ha : e.agenda = .effect i field x s skip answers :: ts) :
    e.Turn S ts (.effect i field x s skip answers) e.step := by
  have hfollows : e.Follows S (.effect i field x s skip answers) :=
    h.tasks _ (ha ▸ List.mem_cons_self)
  obtain ⟨rfl, hx, ⟨on, rfl⟩, r, hr, c, hc, rfl, -⟩ := hfollows
  obtain ⟨host, hhosts, hhostFollows⟩ := h.host
  have hpick : (e.taken.observe (host.fields c.args.field false)).1 =
      S.form.pick (Spec.lenient c.args.field) := by
    have htarget := hS.targets r hr c hc
    rw [observe, Host.fields, Traced.value_bind, Spec.value_read, Host.value_resolve, ← htarget,
      hhostFollows.fields.pick_trigger]
  have hhosts' := hosts_updateHost (show e.taken.hosts = [host] from hhosts) fun y =>
    { y with form := (host.form.apply (S.form.pick (Spec.lenient c.args.field)) x (.ofBool on)).1 }
  rw [step_of_agenda ha, perform, applyEffect,
    host?_of_hosts (show e.taken.hosts = [host] from hhosts)]
  dsimp only
  rw [hpick]
  have hplain : host.form.IsPlain := hS.plain.of_kinds hhostFollows.kinds
  have hnew : Host.Follows S e.queries.length { host with
      form := (host.form.apply (S.form.pick (Spec.lenient c.args.field)) x (.ofBool on)).1 } :=
    ⟨hhostFollows.config, hhostFollows.fields.trans (Form.sameIds_apply _ _ _ _),
      (Form.kinds_apply hplain _ hx on).trans hhostFollows.kinds, hhostFollows.resolver,
      hhostFollows.subscriptions⟩
  have hmore : ∀ t ∈ (if answers then [Task.answer (.handles
      (host.form.apply (S.form.pick (Spec.lenient c.args.field)) x (.ofBool on)).2)] else []),
      ∃ a, t = .answer a := by
    intro t ht
    split at ht
    · exact ⟨_, List.mem_singleton.1 ht⟩
    · simp at ht
  cases host.watched
  · exact .effect (.of_queries rfl) hhosts hhosts' hnew rfl hmore
      (congrArg (fun ts => _ :: (_ ++ ts)) (agenda_taken ha))
  · exact .effect (.of_queries rfl) hhosts hhosts' hnew rfl hmore
      (congrArg (fun ts => _ :: (_ ++ ts)) (agenda_taken ha))

/-- A write checks or fills fields that calls write to. -/
theorem turn_write (hS : S.IsOrderly) (h : e.IsOn S) {i : HostId} {field : String} {v : Value}
    {automatic : Bool} (ha : e.agenda = .write i field v automatic :: ts) :
    e.Turn S ts (.write i field v automatic) e.step := by
  have hfollows : e.Follows S (.write i field v automatic) := h.tasks _ (ha ▸ List.mem_cons_self)
  obtain ⟨rfl, -⟩ := hfollows
  obtain ⟨host, hhosts, hhostFollows⟩ := h.host
  have hpick : (e.taken.observe (host.fields field false)).1 =
      host.form.pick (Spec.lenient field) := by
    rw [observe, Host.fields, Traced.value_bind, Spec.value_read, Host.value_resolve]
  have hhosts' := hosts_updateHost (show e.taken.hosts = [host] from hhosts) fun y =>
    { y with form := (host.form.write (host.form.pick (Spec.lenient field)) v).1 }
  rw [step_of_agenda ha, perform, Engine.write,
    host?_of_hosts (show e.taken.hosts = [host] from hhosts)]
  dsimp only
  rw [hpick]
  have hplain : host.form.IsPlain := hS.plain.of_kinds hhostFollows.kinds
  have hnew : Host.Follows S e.queries.length { host with
      form := (host.form.write (host.form.pick (Spec.lenient field)) v).1 } :=
    ⟨hhostFollows.config, hhostFollows.fields.trans (Form.reports_write _ _ _).toSameIds,
      (Form.kinds_write hplain _ v).trans hhostFollows.kinds, hhostFollows.resolver,
      hhostFollows.subscriptions⟩
  cases host.watched
  · exact .write (.of_queries rfl) hhosts hhosts' hnew rfl (congrArg (List.cons _) (agenda_taken ha))
  · exact .write (.of_queries rfl) hhosts hhosts' hnew rfl (congrArg (List.cons _) (agenda_taken ha))

/-! ## Notifications -/

/-- A notification informs those who listen to the field. -/
theorem turn_notify (h : e.IsOn S) {i : HostId} {changed : List Handle} {automatic : Bool}
    (ha : e.agenda = .notify i changed automatic :: ts) :
    e.Turn S ts (.notify i changed automatic) e.step := by
  have hfollows : e.Follows S (.notify i changed automatic) := h.tasks _ (ha ▸ List.mem_cons_self)
  obtain rfl : i = 0 := hfollows
  obtain ⟨host, hhosts, hhostFollows⟩ := h.host
  have hhost : e.taken.host? 0 = some host := host?_of_hosts hhosts
  rw [step_of_agenda ha, perform]
  cases changed with
  | nil => exact h.unfold (.idle trivial) rfl rfl (agenda_taken ha)
  | cons c rest =>
    have hlisteners : ∀ l ∈ (host.subscriptions.filter (·.covers c)).map Subscription.listener,
        ∃ q < e.queries.length, l = .query q ∧ S.Watches q c := by
      intro l hl
      obtain ⟨sub, hsub, rfl⟩ := List.mem_map.1 hl
      obtain ⟨q, hq, hlistener, hwatches⟩ :=
        hhostFollows.subscriptions sub (List.mem_of_mem_filter hsub)
      exact ⟨q, hq, hlistener, hwatches c (List.mem_filter.1 hsub).2⟩
    simp only [Engine.notify, hhost]
    cases automatic with
    | true =>
      exact h.unfold (.notify hlisteners) rfl rfl
        (congrArg (fun ts => _ :: _ :: ts) (agenda_taken ha))
    | false =>
      have hhosts' := hosts_updateHost (show e.taken.hosts = [host] from hhosts) fun y =>
        { y with changed := true }
      exact .unfold (.notify hlisteners) (.of_queries rfl) hhosts hhosts'
        ⟨hhostFollows.config, hhostFollows.fields, hhostFollows.kinds, hhostFollows.resolver,
          hhostFollows.subscriptions⟩ rfl (congrArg (fun ts => _ :: _ :: ts) (agenda_taken ha))

/-- Informing a listener triggers its rule. -/
theorem turn_inform (h : e.IsOn S) {listeners : List Listener} {field : String} {v : Option Value}
    {automatic : Bool} (ha : e.agenda = .inform listeners field v automatic :: ts) :
    e.Turn S ts (.inform listeners field v automatic) e.step := by
  have hfollows : e.Follows S (.inform listeners field v automatic) :=
    h.tasks _ (ha ▸ List.mem_cons_self)
  rw [step_of_agenda ha]
  cases listeners with
  | nil => exact h.unfold (.idle trivial) rfl rfl (agenda_taken ha)
  | cons l ls =>
    obtain ⟨q, -, rfl⟩ := hfollows l List.mem_cons_self
    exact h.unfold .inform rfl rfl (congrArg (fun ts => _ :: _ :: _ :: ts) (agenda_taken ha))

/-! ## Steps -/

/-- A step starts a chain for the next rule, or is a write. -/
theorem turn_step (h : e.IsOn S) {s : Step} (ha : e.agenda = .step s :: ts) :
    e.Turn S ts (.step s) e.step := by
  have hfollows : e.Follows S (.step s) := h.tasks _ (ha ▸ List.mem_cons_self)
  obtain ⟨c, hc, rfl⟩ := hfollows
  obtain ⟨host, hhosts, hhostFollows⟩ := h.host
  obtain ⟨session, hsession, hplain⟩ := h.plain.session
  have hfind : e.taken.session.host.bind (fun h => (e.taken.host? h).map fun host => (h, host)) =
      some (0, host) := by
    simp [Engine.session, taken, hsession, h.plain.current, hplain.host, host?, hhosts]
  cases c with
  | write field v automatic =>
    have hstep : e.step = (e.taken.schedule [.hold [0] []]).schedule
        [.write 0 field v automatic, .answer .nothing] := by
      rw [step_of_agenda ha]
      simp only [perform, Call.step, performStep, hfind, hostStep]
    rw [hstep]
    exact h.unfold .write rfl rfl (congrArg (fun ts => _ :: _ :: _ :: ts) (agenda_taken ha))
  | rule r name =>
    have hscript := h.script
    rw [ha, List.filterMap_cons, Call.step, Task.chain?] at hscript
    obtain ⟨r', rest, hdrop, hchain, -⟩ := List.map_eq_cons_iff.1 hscript
    have hr' : S.rules[e.queries.length]? = some r' := by
      rw [← Nat.add_zero e.queries.length, ← List.getElem?_drop, hdrop]
      rfl
    have hstep : e.step = ((((e.taken.schedule [.hold [0] []]).addQuery none).2.updateHost 0 fun host =>
        { host with queries := host.queries ++ [e.queries.length] }).schedule
          [.chain ⟨.condition, 0, e.queries.length⟩ r'.chain name]) := by
      rw [step_of_agenda ha, hchain]
      simp only [perform, Call.step, performStep, hfind, hostStep]
      rfl
    have hhosts' : e.step.hosts = [{ host with queries := host.queries ++ [e.queries.length] }] := by
      rw [hstep]
      exact hosts_updateHost
        (show ((e.taken.schedule [.hold [0] []]).addQuery none).2.hosts = [host] from hhosts) _
    have hlength : e.step.queries.length = e.queries.length + 1 := by
      rw [hstep]
      exact List.length_append
    have hqueries : ∀ p, e.step.queryAt p = e.queryAt p := by
      intro p
      have hquery : e.step.query? p =
          if p = e.queries.length then some { parent := none } else e.query? p := by
        rw [hstep]
        exact query?_addQuery _ none p
      rw [queryAt, queryAt, hquery]
      split
      · next hp =>
        rw [query?, hp, List.getElem?_eq_none (Nat.le_refl _)]
        rfl
      · rfl
    rw [Call.step, ← hchain]
    refine .start hr' hlength hqueries hhosts hhosts' ?_ rfl ?_
    · rw [hlength]
      exact ⟨hhostFollows.config, hhostFollows.fields, hhostFollows.kinds, hhostFollows.resolver,
        fun sub hsub => (hhostFollows.subscriptions sub hsub).imp fun q hq => ⟨by omega, hq.2⟩⟩
    · rw [hstep]
      exact congrArg (fun ts => _ :: _ :: ts) (agenda_taken ha)

/-! ## Chains -/

/-- A change of conditions leaves the marks of all queries. -/
theorem marked_updateQuery (e : Engine) (i : QueryId) {f : Query → Query}
    (hf : ∀ s, (f s).parent = s.parent ∧ (f s).callbacks = s.callbacks ∧ (f s).last = s.last) :
    e.Marked (e.updateQuery i f) := by
  have hkeeps : ∀ q, ((e.updateQuery i f).queryAt q).parent = (e.queryAt q).parent ∧
      ((e.updateQuery i f).queryAt q).callbacks = (e.queryAt q).callbacks ∧
      ((e.updateQuery i f).queryAt q).last = (e.queryAt q).last := by
    intro q
    rw [queryAt, queryAt, query?_updateQuery]
    split
    · cases e.query? q with
      | none => exact ⟨rfl, rfl, rfl⟩
      | some s => exact hf s
    · exact ⟨rfl, rfl, rfl⟩
  exact ⟨by simp [updateQuery], fun q => (hkeeps q).1, fun q => (hkeeps q).2.1,
    fun q => (hkeeps q).2.2⟩

theorem Marked.trans {e' e'' : Engine} (h : e.Marked e') (h' : e'.Marked e'') : e.Marked e'' where
  length := h'.length.trans h.length
  parent q := (h'.parent q).trans (h.parent q)
  callbacks q := (h'.callbacks q).trans (h.callbacks q)
  last q := (h'.last q).trans (h.last q)

/-- A chain that adds a condition makes the rule listen to the groups of its field. -/
theorem turn_when (hS : S.IsOrderly) (h : e.IsOn S) {f : Facet} {v : Value} {field : String}
    {ops : List (ChainOp Step)} {name : Option String} {r : SwitchRule}
    (ha : e.agenda = .chain f (.when (.value v) (some field) :: ops) name :: ts)
    (hkind : f.kind = .condition) (hr : S.rules[f.query]? = some r) (hc : (v, field) ∈ r.conditions)
    (hops : r.Continues (e.callbacks f.query).length .junction ops) :
    e.Turn S ts (.chain f (.when (.value v) (some field) :: ops) name) e.step := by
  have hfollows : e.Follows S (.chain f (.when (.value v) (some field) :: ops) name) :=
    h.tasks _ (ha ▸ List.mem_cons_self)
  obtain ⟨hf, hlast, -⟩ := hfollows
  obtain ⟨host, hhosts, hhostFollows⟩ := h.host
  have hspec : (Spec.lenient field).isAll = false := by
    rw [← Spec.value_read, Spec.isAll_read]
    exact (hS.conditions r (List.mem_of_getElem? hr) _ hc).2
  have htrigger : (Spec.lenient field).trigger.isAll = false := by
    cases hl : Spec.lenient field with
    | all => rw [hl] at hspec; exact hspec
    | fields ss => rfl
  let e₁ := (e.taken.observe (Spec.read field)).2.updateQuery f.query
    (·.addLeaf (.check 0 (Spec.lenient field) v))
  have hadd : (e.taken.observe (Spec.read field)).2.Marked e₁ :=
    marked_updateQuery _ f.query (f := (·.addLeaf (.check 0 (Spec.lenient field) v)))
      fun _ => ⟨rfl, rfl, rfl⟩
  have hhosts₁ : e₁.hosts = [host] := hhosts
  obtain ⟨events, hsubscribe⟩ := subscribe_eq (host?_of_hosts hhosts₁) htrigger (.query f.query)
  have hstep : e.step = (e₁.subscribe 0 (Spec.lenient field).trigger (.query f.query)).schedule
      [.chain { f with kind := .junction } ops name] := by
    have hvalue : (e.taken.observe (Spec.read field)).1 = Spec.lenient field := Spec.value_read field
    rw [step_of_agenda ha]
    simp only [perform, Engine.chain, Engine.chainOp, hkind, Engine.conditionOp, Option.getD_some,
      hvalue, conditionLeaf, Engine.listenTo, hspec, hf, Bool.false_eq_true, if_false]
    rfl
  have hhosts' := hosts_updateHost (show (e₁.record events).hosts = [host] from hhosts₁) fun x =>
    { x with subscriptions := x.subscriptions ++
        [⟨some (host.form.pick (Spec.lenient field).trigger), .query f.query⟩] }
  have hunfolds : (Task.chain f (.when (.value v) (some field) :: ops) name).Unfolds S e
      [.chain { f with kind := .junction } ops name] := .condition rfl rfl hr hops
  have hobserve : e.Marked (e.taken.observe (Spec.read field)).2 := .of_queries rfl
  have hmarked : e.Marked e₁ := hobserve.trans hadd
  rw [hstep, hsubscribe]
  refine .unfold hunfolds (hmarked.trans (.of_queries rfl)) hhosts hhosts' ?_ rfl
    (congrArg (List.cons _) (agenda_taken ha))
  refine ⟨hhostFollows.config, hhostFollows.fields, hhostFollows.kinds, hhostFollows.resolver, ?_⟩
  intro sub hsub
  have hlength : e.queries.length = e₁.queries.length := hmarked.length.symm
  rcases List.mem_append.1 hsub with hsub | hsub
  · exact hlength ▸ hhostFollows.subscriptions sub hsub
  · obtain rfl := List.mem_singleton.1 hsub
    have hlt : f.query < e.queries.length := Nat.lt_of_succ_le (Nat.le_of_eq hlast)
    refine ⟨f.query, hlength ▸ hlt, rfl, fun x hx => ?_⟩
    refine ⟨r, hr, (v, field), hc, ?_⟩
    rw [← hhostFollows.fields.pick_trigger]
    simpa [Subscription.covers] using hx

/-- A junction changes the clauses of the latest rule. -/
theorem turn_join (h : e.IsOn S) {f : Facet} {isOr : Bool} {ops : List (ChainOp Step)}
    {name : Option String} {r : SwitchRule}
    (ha : e.agenda = .chain f ((if isOr then .or else .and) :: ops) name :: ts)
    (hkind : f.kind = .junction) (hr : S.rules[f.query]? = some r)
    (hops : r.Continues (e.callbacks f.query).length .condition ops) :
    e.Turn S ts (.chain f ((if isOr then .or else .and) :: ops) name) e.step := by
  obtain ⟨host, hhosts, hhostFollows⟩ := h.host
  have hunfolds : (Task.chain f ((if isOr then .or else .and) :: ops) name).Unfolds S e
      [.chain { f with kind := .condition } ops name] := .condition rfl rfl hr hops
  cases isOr with
  | false =>
    have hstep : e.step = e.taken.schedule [.chain { f with kind := .condition } ops name] := by
      rw [step_of_agenda ha]
      simp only [perform, Engine.chain, Engine.chainOp, hkind, Engine.junctionOp, Bool.false_eq_true,
        if_false]
      rfl
    rw [hstep]
    exact h.unfold hunfolds rfl rfl (congrArg (List.cons _) (agenda_taken ha))
  | true =>
    have hstep : e.step = (e.taken.addClause f.query).schedule
        [.chain { f with kind := .condition } ops name] := by
      rw [step_of_agenda ha]
      simp only [perform, Engine.chain, Engine.chainOp, hkind, Engine.junctionOp, if_true]
      rfl
    have hmarked : e.taken.Marked (e.taken.addClause f.query) :=
      marked_updateQuery _ f.query fun _ => ⟨rfl, rfl, rfl⟩
    have htaken : e.Marked e.taken := .of_queries rfl
    have hlength : (e.taken.addClause f.query).queries.length = e.queries.length := hmarked.length
    rw [hstep]
    exact .unfold hunfolds ((htaken.trans hmarked).trans (.of_queries rfl)) hhosts hhosts
      (hlength.symm ▸ hhostFollows) rfl (congrArg (List.cons _) (agenda_taken ha))

/-- At its end a chain is kept under its name. -/
theorem turn_close (h : e.IsOn S) {f : Facet} {name : Option String}
    (ha : e.agenda = .chain f [] name :: ts) : e.Turn S ts (.chain f [] name) e.step := by
  rw [step_of_agenda ha]
  cases name with
  | none => exact h.unfold .close rfl rfl (agenda_taken ha)
  | some name => exact h.unfold .close rfl rfl (agenda_taken ha)

/-- What stays below while a rule is built triggers nothing. -/
theorem not_rings_of_isOuter (ht : t.IsOuter) {q : QueryId} : ¬ e.Rings q t := by
  cases t with
  | trigger p => exact absurd ht id
  | inform listeners field v automatic => exact absurd ht id
  | notify i changed automatic => exact absurd ht id
  | _ => exact id

/-- When the chain of a rule goes on, the last result of the rule is its present one. -/
theorem IsOn.holds_of_last? (h : e.IsOn S) {f : Facet} {ops : List (ChainOp Step)}
    {name : Option String} (ha : e.agenda = .chain f ops name :: ts) {q : QueryId} {b : Bool}
    (hb : e.last? q = some b) : b = true ↔ e.Holds q := by
  rcases (h.fresh q).result b hb with hholds | ⟨t, ht, p, -, hrings⟩
  · exact hholds
  · rw [ha] at ht
    have hstacked := h.stacked
    rw [ha] at hstacked
    rcases List.mem_cons.1 ht with rfl | ht
    · exact absurd hrings id
    · exact absurd hrings (not_rings_of_isOuter ((List.rel_of_pairwise_cons hstacked ht).outer trivial))

/-- Attaching actions with a polarity chooses a branch, and then attaches. -/
theorem attachActions_eq (e : Engine) (f : Facet) (a : Attachment) :
    e.attachActions f a.polarity a.tokens a.args =
      (e.setDirect f.query a.failing).attach f (.attached f.host a.polarity a.tokens a.args false) := by
  unfold attachActions Attachment.polarity
  cases a.failing <;> rfl

/-- The engine with an attachment to the rule, before anyone is told. -/
def attached (e : Engine) (q : QueryId) (a : Attachment) : Engine :=
  (e.updateQuery q fun s => { s with negateDirect := a.failing }).updateQuery q fun s =>
    { s with callbacks := s.callbacks ++ [a.callback] }

/-- An attachment is added behind the others of its rule. -/
theorem query?_attached (e : Engine) (q : QueryId) (a : Attachment) (p : QueryId) :
    (e.attached q a).query? p = if q = p then (e.query? p).map fun s =>
      { s with negateDirect := a.failing, callbacks := s.callbacks ++ [a.callback] }
      else e.query? p := by
  rw [attached, query?_updateQuery, query?_updateQuery]
  split
  · cases e.query? p <;> rfl
  · rfl

/-- Who is told of an attachment: the rule is triggered, or the callback alone hears of the present
result. -/
theorem chain_attach {f : Facet} {a : Attachment} {ops : List (ChainOp Step)} {name : Option String}
    (hf : f.host = 0) (hkind : f.kind = .junction) (hq : f.query < e.queries.length)
    (hroot : ∀ s, e.query? f.query = some s → s.parent = none) :
    e.chain f (a.op :: ops) name =
      if e.last? f.query = none then (e.attached f.query a).schedule
        [.trigger f.query, .chain ⟨.junction, f.host, f.query⟩ ops name]
      else ((e.attached f.query a).record ((e.attached f.query a).evaluate f.query).events).schedule
        [.deliver f.query (e.callbacks f.query).length
          ((e.attached f.query a).evaluate f.query).value true,
          .chain ⟨.junction, f.host, f.query⟩ ops name] := by
  obtain ⟨s, hs⟩ : ∃ s, e.query? f.query = some s := ⟨_, List.getElem?_eq_getElem hq⟩
  have hdirect : e.setDirect f.query a.failing =
      e.updateQuery f.query fun s => { s with negateDirect := a.failing } := by
    rw [setDirect, root_of_parent hroot]
  have hquery : (e.setDirect f.query a.failing).query? f.query =
      some { s with negateDirect := a.failing } := by
    rw [hdirect, query?_updateQuery, if_pos rfl, hs]
    rfl
  have hroot' : (e.setDirect f.query a.failing).root f.query = f.query := by
    refine root_of_parent fun u hu => ?_
    rw [hquery] at hu
    obtain rfl := Option.some.inj hu
    exact hroot s hs
  have hlast : e.last? f.query = s.last := by rw [last?, queryAt_eq hs]
  have hcallbacks : e.callbacks f.query = s.callbacks := by simp [callbacks, hs]
  rw [hlast, hcallbacks, Engine.chain, Attachment.op]
  simp only [Engine.chainOp, hkind, Engine.junctionOp, attachActions_eq, Engine.attach,
    Engine.addCallback, hroot', hquery, Option.getD_some, hf]
  cases hn : s.last with
  | none =>
    simp only [Option.isNone_none, if_true]
    rw [hdirect]
    rfl
  | some b =>
    simp only [Option.isNone_some, Bool.false_eq_true, if_false, reduceCtorEq]
    rw [hdirect]
    rfl

/-- Plain actions may be attached. -/
theorem IsPlain.attached {e : Engine} (h : e.IsPlain Config.builtin) {q : QueryId} {a : Attachment}
    (ha : ∀ t ∈ a.tokens, t.IsPlain Config.builtin.evaluations) :
    (e.attached q a).IsPlain Config.builtin := by
  have hdirect : (e.updateQuery q fun s => { s with negateDirect := a.failing }).IsPlain
      Config.builtin := h.updateMarks q (fun _ => ⟨rfl, rfl, rfl⟩) fun _ _ hc => hc
  refine hdirect.updateMarks q (fun _ => ⟨rfl, rfl, rfl⟩) fun s _ hs x hx => ?_
  rcases List.mem_append.1 hx with hx | hx
  · exact hs x hx
  · obtain rfl := List.mem_singleton.1 hx
    exact ha

/-- An attachment is synchronised by itself if its rule has a result, or else has the rule
triggered. -/
theorem turn_attach (h : e.IsOn S) {f : Facet} {a : Attachment} {ops : List (ChainOp Step)}
    {name : Option String} {r : SwitchRule} (ha : e.agenda = .chain f (a.op :: ops) name :: ts)
    (hkind : f.kind = .junction) (hr : S.rules[f.query]? = some r)
    (hget : r.attachments[(e.callbacks f.query).length]? = some a)
    (hops : ops = (r.attachments.drop ((e.callbacks f.query).length + 1)).map Attachment.op) :
    e.Turn S ts (.chain f (a.op :: ops) name) e.step := by
  have hmem : .chain f (a.op :: ops) name ∈ e.agenda := ha ▸ List.mem_cons_self
  have hfollows : e.Follows S (.chain f (a.op :: ops) name) := h.tasks _ hmem
  obtain ⟨hf, hlast, -⟩ := hfollows
  have hlt : f.query < e.queries.length := Nat.lt_of_succ_le (Nat.le_of_eq hlast)
  obtain ⟨s, hs⟩ : ∃ s, e.query? f.query = some s := ⟨_, List.getElem?_eq_getElem hlt⟩
  have hroot : ∀ s, e.query? f.query = some s → s.parent = none :=
    fun s hs => (h.queries _ s hs).parent
  have htokens : ∀ t ∈ a.tokens, t.IsPlain Config.builtin.evaluations := by
    have hplain : (Task.chain f (a.op :: ops) name).IsPlain Config.builtin.evaluations
      e.queries.length := h.plain.agenda _ hmem
    cases hplain.2 a.op List.mem_cons_self with
    | attach htokens => exact htokens
  have hquery : ∀ p, (e.taken.attached f.query a).query? p = if f.query = p then
      (e.query? p).map fun s =>
        { s with negateDirect := a.failing, callbacks := s.callbacks ++ [a.callback] }
      else e.query? p := query?_attached e.taken f.query a
  have hmarks : ∀ p, ((e.taken.attached f.query a).queryAt p).parent = (e.queryAt p).parent ∧
      (e.taken.attached f.query a).last? p = e.last? p ∧ (e.taken.attached f.query a).callbacks p =
        if p = f.query then e.callbacks p ++ [a.callback] else e.callbacks p := by
    intro p
    rw [last?, last?, callbacks, callbacks, queryAt, queryAt, hquery]
    by_cases hp : f.query = p
    · subst hp
      simp [hs]
    · have hp' : p ≠ f.query := fun heq => hp heq.symm
      simp [hp, hp']
  have hlength : (e.taken.attached f.query a).queries.length = e.queries.length := by
    simp [attached, updateQuery, taken]
  have hstep : e.step = e.taken.chain f (a.op :: ops) name := step_of_agenda ha
  rw [hstep, chain_attach (e := e.taken) hf hkind hlt hroot]
  cases hb : e.last? f.query with
  | none =>
    rw [if_pos (show e.taken.last? f.query = none from hb)]
    exact .attach hr hget hops hlength (fun p => (hmarks p).1) (fun p => (hmarks p).2.2)
      (fun p => (hmarks p).2.1) rfl (Or.inl ⟨hb, rfl⟩)
      (congrArg (fun ts => _ :: _ :: ts) (agenda_taken ha))
  | some b =>
    have hsome : e.taken.last? f.query = some b := hb
    have hplain : (e.taken.attached f.query a).IsPlain Config.builtin :=
      h.plain.taken.attached htokens
    have hvalue : ((e.taken.attached f.query a).evaluate f.query).value = b := by
      have hholds : e.Holds f.query ↔ (e.taken.attached f.query a).Holds f.query := by
        refine h.plain.holds_iff Draft.build_withDefaults hplain hs (fun p u _ hu => ?_) ?_
        · rw [hquery, hu]
          split
          · exact ⟨_, rfl, rfl⟩
          · exact ⟨u, rfl, rfl⟩
        · intro host host' hhost hhost' p spec _ _
          obtain rfl := Option.some.inj (hhost.symm.trans hhost')
          exact ⟨.refl _, fun _ _ => rfl⟩
      have hs' : (e.taken.attached f.query a).query? f.query =
          some { s with negateDirect := a.failing, callbacks := s.callbacks ++ [a.callback] } := by
        rw [hquery, if_pos rfl, hs]
        rfl
      have htree := hplain.isTree hs' (hroot s hs)
      rw [Bool.eq_iff_iff, evaluate_iff_holds htree .root, ← hholds]
      exact (h.holds_of_last? ha hb).symm
    rw [if_neg (by simp [hsome]), hvalue]
    exact .attach hr hget hops hlength (fun p => (hmarks p).1) (fun p => (hmarks p).2.2)
      (fun p => (hmarks p).2.1) rfl (Or.inr ⟨b, hb, rfl⟩)
      (congrArg (fun ts => _ :: _ :: ts) (agenda_taken ha))

/-- A chain goes on with a condition, a junction or an attachment, or comes to its end. -/
theorem turn_chain (hS : S.IsOrderly) (h : e.IsOn S) {f : Facet} {ops : List (ChainOp Step)}
    {name : Option String} (ha : e.agenda = .chain f ops name :: ts) :
    e.Turn S ts (.chain f ops name) e.step := by
  have hfollows : e.Follows S (.chain f ops name) := h.tasks _ (ha ▸ List.mem_cons_self)
  obtain ⟨hf, hlast, r, hr, hops⟩ := hfollows
  generalize hkind : f.kind = kind at hops
  cases hops with
  | condition hc hparts => exact turn_when hS h ha hkind hr hc (.junction hparts)
  | @junction parts hparts =>
    cases parts with
    | cons p parts =>
      have hp := hparts p List.mem_cons_self
      exact turn_join h ha hkind hr
        (.condition hp fun p hp => hparts p (List.mem_cons_of_mem _ hp))
    | nil =>
      cases hdrop : r.attachments.drop (e.callbacks f.query).length with
      | nil =>
        simp only [List.flatMap_nil, hdrop, List.map_nil, List.append_nil] at ha ⊢
        exact turn_close h ha
      | cons a rest =>
        have hget : r.attachments[(e.callbacks f.query).length]? = some a := by
          rw [← Nat.add_zero (e.callbacks f.query).length, ← List.getElem?_drop, hdrop]
          rfl
        have hrest : rest = r.attachments.drop ((e.callbacks f.query).length + 1) := by
          rw [← List.drop_drop, hdrop]
          rfl
        simp only [List.flatMap_nil, hdrop, List.map_cons, List.nil_append] at ha ⊢
        exact turn_attach h ha hkind hr hget (by rw [hrest])

/-- What the next task of a run can do. -/
theorem turn (hS : S.IsOrderly) (h : e.IsOn S) (ha : e.agenda = t :: ts) :
    e.Turn S ts t e.step := by
  have hfollows : e.Follows S t := h.tasks t (ha ▸ List.mem_cons_self)
  have hidle : t.IsIdle → ∀ e', e.step = e' → e'.queries = e.queries → e'.hosts = e.hosts →
      e'.agenda = ts → e.Turn S ts t e.step := by
    rintro ht e' rfl hq hh ha'
    exact h.unfold (.idle ht) hq hh ha'
  cases t with
  | step s => exact turn_step h ha
  | ran s => exact hidle trivial _ (step_of_agenda ha) rfl rfl (agenda_taken ha)
  | answer a => exact hidle trivial _ (step_of_agenda ha) rfl rfl (agenda_taken ha)
  | summarize q => exact absurd hfollows id
  | hold hosts queries => exact hidle trivial _ (step_of_agenda ha) rfl rfl (agenda_taken ha)
  | chain f ops name => exact turn_chain hS h ha
  | trigger q => exact turn_trigger h ha
  | round q b skip pending =>
    cases pending with
    | nil => exact hidle trivial _ (step_of_agenda ha) rfl rfl (agenda_taken ha)
    | cons i rest =>
      rw [step_of_agenda ha]
      exact h.unfold .round rfl rfl (congrArg (fun ts => _ :: _ :: ts) (agenda_taken ha))
  | deliver q i b skip => exact turn_deliver h ha
  | dispatch i tokens args negate skip report answers => exact turn_dispatch hS h ha
  | perform i action args skip => exact turn_perform h ha
  | effect i field x s skip answers => exact turn_effect hS h ha
  | write i field v automatic => exact turn_write hS h ha
  | log event => exact hidle trivial _ (step_of_agenda ha) rfl rfl (agenda_taken ha)
  | notify i changed automatic => exact turn_notify h ha
  | inform listeners field v automatic => exact turn_inform h ha
  | flagSet listeners => exact absurd hfollows id

end Engine

end FormRules
