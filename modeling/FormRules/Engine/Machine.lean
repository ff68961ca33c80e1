import FormRules.Engine.Evaluate

/-!
# The machine

`Engine.perform` does one task: it changes the engine and puts what follows from the task in front
of the agenda. It does not recurse; a nested trigger, dispatch or script is a longer agenda.
`Engine.run` performs a number of tasks, and `Engine.finish?` all of them.

A trigger compares the result of a tree of queries with the one at its last round, and starts a round
of callbacks if they differ. The new result is kept before any callback runs, so a trigger from
inside a callback compares with it.
-/

namespace FormRules

namespace Engine

/-! ## Queries -/

/-- Makes the query listen to what the condition observes. -/
def observeLeaf (e : Engine) (q : QueryId) (observable : Bool) : Leaf → Engine
  | .flag ref _ =>
    if observable then
      e.updateFlag ref fun f => { f with listeners := f.listeners ++ [.query q] }
    else e
  | _ => e

/-- Adds a condition to the last clause of a query. -/
def addCondition (e : Engine) (q : QueryId) (leaf : Leaf) (observable : Bool) : Engine :=
  let e := e.updateQuery q fun s =>
    { s with clauses := s.clauses.modify (s.clauses.length - 1) (· ++ [leaf]) }
  e.observeLeaf q observable leaf

/-- Starts a new clause. -/
def addClause (e : Engine) (q : QueryId) : Engine :=
  e.updateQuery q fun s => { s with clauses := s.clauses ++ [[]] }

/-- Pauses or resumes the tree of a query. -/
def setPaused (e : Engine) (q : QueryId) (paused : Bool) : Engine :=
  e.updateQuery (e.root q) fun s => { s with paused }

/-- Chooses the branch of direct actions for the tree of a query. -/
def setDirect (e : Engine) (q : QueryId) (failing : Bool) : Engine :=
  e.updateQuery (e.root q) fun s => { s with negateDirect := failing }

/-- Whether direct actions attach to the failing branch. -/
def isNegated (e : Engine) (q : QueryId) : Bool :=
  ((e.query? (e.root q)).getD {}).negateDirect

/-- The condition that a node stands for, and whether it can be observed. -/
def nodeLeaf (e : Engine) : NodeSpec → (Leaf × Bool) × Engine
  | .query name =>
    let (q, e) := e.named name
    ((.query q, false), e)
  | .flag name observable logged => ((.flag ⟨e.current, name⟩ logged, observable), e)

/-- Triggers the tree of a query: starts a round if the result is not that of the last one. -/
def trigger (e : Engine) (q : QueryId) : Engine :=
  let q := e.root q
  let s := (e.query? q).getD {}
  if s.paused then e.note .triggerIgnored
  else
    let (state, e) := e.observe (e.evaluate q)
    if s.last = some state then e
    else
      let skip := s.last.isNone
      let e := e.updateQuery q fun s => { s with last := some state }
      let e := e.note (.stateChanged state skip)
      e.schedule [.round q state skip (List.range s.callbacks.length)]

/-- Registers a callback at the root, and gives the task that follows. The first callback triggers
the tree; on a tree that had its first round the new callback alone is run with the present
result. -/
def addCallback (e : Engine) (q : QueryId) (callback : Callback) : Task × Engine :=
  let q := e.root q
  let s := (e.query? q).getD {}
  let e := e.updateQuery q fun s => { s with callbacks := s.callbacks ++ [callback] }
  if s.last.isNone then (.trigger q, e)
  else
    let (state, e) := e.observe (e.evaluate q)
    (.deliver q s.callbacks.length state true, e)

/-- Runs one callback. A list that runs only once is spent from the moment it runs on a result that
holds. -/
def deliver (e : Engine) (q : QueryId) (callback : Nat) (state skip : Bool) : Engine :=
  match ((e.query? q).getD {}).callbacks[callback]? with
  | none => e
  | some (.script label run) =>
    (e.record [.call label state skip]).schedule (Task.ofScript run)
  | some (.attached h p actions args spent) =>
    if spent then e
    else
      let e := if p = .once ∧ state then
          e.updateQuery q fun s =>
            { s with callbacks := s.callbacks.set callback (.attached h p actions args true) }
        else e
      match p.negates? state with
      | some negate =>
        if e.hostInUse h then e.schedule [.dispatch h actions args negate skip {} false] else e
      | none => e

/-! ## Hosts -/

/-- Subscribes a listener to the fields of an identifier. Fields are resolved now; the blank
identifier listens to all, later ones too. -/
def subscribe (e : Engine) (h : HostId) (spec : Spec) (listener : Listener) : Engine :=
  match e.host? h with
  | none => e
  | some host =>
    let (fields, e) := e.observe (match spec with
      | .all => pure none
      | spec => some <$> host.resolve spec false)
    e.updateHost h fun host =>
      { host with subscriptions := host.subscriptions ++ [⟨fields, listener⟩] }

/-- Switches an effect on the fields of an identifier, and notifies of those whose checked state was
set. -/
def applyEffect (e : Engine) (h : HostId) (field : String) (effect : Effect) (s : Switch)
    (skip answers : Bool) : Engine :=
  match e.host? h with
  | none => e
  | some host =>
    let (hs, e) := e.observe (host.fields field false)
    let (form, changed) := host.form.apply hs effect s
    let e := e.updateHost h fun host => { host with form }
    let e := if host.watched then e.record [.applied hs effect s skip changed] else e
    e.schedule (.notify h changed true :: if answers then [.answer (.handles changed)] else [])

/-- Writes a value to the fields of an identifier, and notifies of those that changed. -/
def write (e : Engine) (h : HostId) (field : String) (v : Value) (automatic : Bool) : Engine :=
  match e.host? h with
  | none => e
  | some host =>
    let (hs, e) := e.observe (host.fields field false)
    let (form, changed) := host.form.write hs v
    let e := e.updateHost h fun host => { host with form }
    let e := if host.watched then e.record [.written hs v changed] else e
    e.schedule [.notify h changed automatic]

/-- Tells those who listen to the first of the changed fields, and leaves the others for later. -/
def notify (e : Engine) (h : HostId) (changed : List Handle) (automatic : Bool) : Engine :=
  match changed, e.host? h with
  | f :: rest, some host =>
    let listeners := (host.subscriptions.filter (·.covers f)).map Subscription.listener
    let id := ((host.form.field? f).map FieldState.id).getD ""
    let e := if automatic then e else e.updateHost h fun host => { host with changed := true }
    let e := e.note (.fieldChanged id automatic listeners.length)
    e.schedule [.inform listeners id (host.form.value? f) automatic, .notify h rest automatic]
  | _, _ => e

/-- Tells one listener of a change. -/
def inform (e : Engine) (field : String) (v : Option Value) (automatic : Bool) :
    Listener → Engine
  | .query q => e.schedule [.trigger q, .hold [] [q]]
  | .script label run =>
    (e.record [.change label field v automatic]).schedule (Task.ofScript run)

/-- The opposite of an action of a host. -/
def negative (e : Engine) (h : HostId) (name : String) : Option String × Engine :=
  match e.host? h with
  | none => (none, e)
  | some host =>
    let (found, resolver, notes) := host.resolver.resolve name host.actions.contains
    (found, (e.updateHost h fun host => { host with resolver }).record (notes.map .diagnostic))

/-- Runs the action of a name, or reports that there is none; then goes on with `next`. -/
def invoke (e : Engine) (h : HostId) (name : String) (args : Args) (skip : Bool)
    (report : Report) (next : Report → Task) : Engine :=
  match e.host? h with
  | none => e
  | some host =>
    match host.actions.get? name with
    | some action =>
      (e.note (.applyingAction name skip)).schedule
        [.perform h action args skip, next (report.addApplied name)]
    | none =>
      (e.note (.unknownAction name host.form.id)).schedule [next (report.addUnknown name)]

/-- Applies the first token, and leaves the others for later. With `negate`, a name stands for its
opposite, and a token without one is skipped. -/
def dispatch (e : Engine) (h : HostId) (args : Args) (negate skip : Bool) (report : Report)
    (next : Report → Task) : Token Step → Engine
  | .custom label run =>
    if negate then
      (e.note .customHasNoNegative).schedule [next (report.addSkipped customLabel)]
    else
      (e.record [.custom label skip]).schedule
        (Task.ofScript run ++ [next (report.addApplied customLabel)])
  | .named name =>
    if negate then
      match e.negative h name with
      | (some negative, e) => e.invoke h negative args skip report next
      | (none, e) => e.schedule [next (report.addSkipped name)]
    else e.invoke h name args skip report next

/-- The tasks of an action. -/
def actionTasks (classes : ClassNames) (h : HostId) (args : Args) (skip : Bool) :
    Action → List Task
  | .builtin a => (a.plan classes args).map fun
    | .effect field e s => .effect h field e s skip false
    | .write field v => .write h field v true
    | .note d => .log (.diagnostic d)
  | .scripted a =>
    .log (.action a.name args skip) ::
      (match a.effect with
        | some (e, s) => [.effect h args.field e s skip false]
        | none => []) ++ Task.ofScript a.run

/-! ## Chains -/

/-- The condition of a chain, and whether it can be observed. -/
def conditionLeaf (e : Engine) (h : HostId) (field : String) (spec : Spec) :
    ConditionSpec → (Leaf × Bool) × Engine
  | .value v => ((.check h spec v, false), e)
  | .test t label => ((.test h field spec t label, false), e)
  | .node n => e.nodeLeaf n

/-- Makes a rule listen to the fields of an identifier, without its values; the blank identifier is
not listened to. -/
def listenTo (e : Engine) (f : Facet) (spec : Spec) : Engine :=
  if spec.isAll then e else e.subscribe f.host spec.trigger (.query f.query)

/-- Attaches a callback to a rule. The facet afterwards is that of the whole rule. -/
def attach (e : Engine) (f : Facet) (callback : Callback) : Engine × Facet × List Task :=
  let root := e.root f.query
  let (task, e) := e.addCallback root callback
  (e, ⟨.junction, f.host, root⟩, [task])

/-- Attaches an action list with a polarity, which may choose the branch of direct actions. -/
def attachActions (e : Engine) (f : Facet) (p : Polarity) (actions : List (Token Step))
    (args : Args) : Engine × Facet × List Task :=
  let e := match p with
    | .holding => e.setDirect f.query false
    | .failing => e.setDirect f.query true
    | _ => e
  e.attach f (.attached f.host p actions args false)

/-- Keeps a rule under a name. -/
def keepRule (e : Engine) (f : Facet) (name : String) : Engine :=
  (e.nameQuery name f.query).updateSession fun s =>
    { s with rules := Roster.put Prod.fst (name, f) s.rules }

/-- An operation of a chain on the facet that takes conditions. -/
def conditionOp (e : Engine) (f : Facet) : ChainOp Step → Engine × Facet
  | .when c field =>
    let field := field.getD formAlias
    let (spec, e) := e.observe (Spec.read field)
    let ((leaf, observable), e) := e.conditionLeaf f.host field spec c
    ((e.addCondition f.query leaf observable).listenTo f spec, { f with kind := .junction })
  | .on field =>
    let (spec, e) := e.observe (Spec.read field)
    (e.listenTo f spec, { f with kind := .junction })
  | .openBracket =>
    let (child, e) := e.addQuery (some f.query)
    ((e.addCondition f.query (.query child) false).listenTo f .form, { f with query := child })
  | _ => (e, f)

/-- An operation of a chain on the facet that takes junctions and actions, with the tasks that
follow. -/
def junctionOp (e : Engine) (f : Facet) : ChainOp Step → Engine × Facet × List Task
  | .evaluate =>
    let (result, e) := e.observe (e.evaluate f.query)
    (e.record [.evaluated result], f, [])
  | .and => (e, { f with kind := .condition }, [])
  | .or => (e.addClause f.query, { f with kind := .condition }, [])
  | .closeBracket => (e, { f with query := (e.parent? f.query).getD f.query }, [])
  | .call label run => e.attach f (.script label run)
  | .attach p actions args => e.attachActions f p actions args
  | .direct failing => (e.setDirect f.query failing, f, [])
  | .action actions args =>
    e.attachActions f (if e.isNegated f.query then .failing else .holding) actions args
  | _ => (e, f, [])

/-- Performs one operation of a chain. What a facet does not offer changes nothing. -/
def chainOp (e : Engine) (f : Facet) (op : ChainOp Step) : Engine × Facet × List Task :=
  match op with
  | .save name => (e.keepRule f name, f, [])
  | .trigger => (e, f, [.trigger f.query])
  | .pause => (e.setPaused f.query true, f, [])
  | .resume => (e.setPaused f.query false, f, [])
  | op =>
    match f.kind with
    | .condition =>
      let (e, f) := e.conditionOp f op
      (e, f, [])
    | .junction => e.junctionOp f op

/-- Performs a chain: its first operation now, the others after what that caused. At its end the
rule is kept under its name. -/
def chain (e : Engine) (f : Facet) (ops : List (ChainOp Step)) (name : Option String) : Engine :=
  match ops with
  | op :: ops =>
    let (e, f, tasks) := e.chainOp f op
    e.schedule (tasks ++ [.chain f ops name])
  | [] =>
    let e := match name with
      | some name => e.keepRule f name
      | none => e
    e.reply (.rule (e.facetSummary f))

/-! ## Steps -/

/-- Performs an operation on the query `q` of a name. -/
def queryOp (e : Engine) (q : QueryId) : QueryOp Step → Engine
  | .condition node =>
    let ((leaf, observable), e) := e.nodeLeaf node
    (e.addCondition q leaf observable).schedule [.summarize q]
  | .or => (e.addClause q).schedule [.summarize q]
  | .trigger => e.schedule [.trigger q, .summarize q]
  | .pause => (e.setPaused q true).schedule [.summarize q]
  | .resume => (e.setPaused q false).schedule [.summarize q]
  | .negate failing => (e.setDirect q failing).schedule [.summarize q]
  | .callback label run =>
    let (task, e) := e.addCallback q (.script label run)
    e.schedule [task, .hold [] [e.root q], .summarize q]
  | .evaluate =>
    let (result, e) := e.observe (e.evaluate q)
    e.reply (.truth result)
  | .same other =>
    let (r, e) := e.named other
    e.reply (.same (q == r) (e.root q == e.root r))
  | .parent other =>
    let (r, e) := e.named other
    e.reply (.parent? ((e.parent? q).map (· == r)))
  | .listen node label =>
    let ((leaf, observable), e) := e.nodeLeaf node
    match leaf, observable with
    | .flag ref _, true =>
      (e.updateFlag ref fun f => { f with listeners := f.listeners ++ [.log label] }).reply
        (.truth true)
    | _, _ => e.reply (.truth false)
  | .and | .inspect => e.schedule [.summarize q]
  | .new | .childOf _ | .drop => e

/-- Performs a step about the query of a name. -/
def queryStep (e : Engine) (name : String) (op : QueryOp Step) : Engine :=
  match op with
  | .new =>
    let (q, e) := e.addQuery none
    (e.nameQuery name q).reply .nothing
  | .childOf parent =>
    let (p, e) := e.named parent
    let (q, e) := e.addQuery (some p)
    (e.nameQuery name q).reply .nothing
  | .drop =>
    let known := (e.session.queries.lookup name).isSome
    (e.updateSession fun s => { s with queries := s.queries.filter (·.1 != name) }).reply
      (.truth known)
  | op =>
    let (q, e) := e.named name
    (e.schedule [.hold [] [q]]).queryOp q op

/-- Starts a rule: continues the one of a name, or makes a new query. -/
def startRule (e : Engine) (h : HostId) (source : Option String) : Facet × Engine :=
  match source.bind fun name => e.session.rules.lookup name with
  | some f => (f, e)
  | none =>
    let (q, e) := e.addQuery none
    (⟨.condition, h, q⟩, e.updateHost h fun host => { host with queries := host.queries ++ [q] })

/-- Performs a step about the session's host. -/
def hostStep (e : Engine) (h : HostId) (host : Host) : Step → Engine
  | .rule chain name source =>
    let (f, e) := e.startRule h source
    e.schedule [.chain f chain name]
  | .write field v automatic => e.schedule [.write h field v automatic, .answer .nothing]
  | .effect field effect s skip => e.schedule [.effect h field effect s skip true]
  | .listen field label run =>
    let (spec, e) := e.observe (Spec.read field)
    (e.subscribe h spec (.script label run)).reply .nothing
  | .dispatch actions args negate skip =>
    e.schedule [.dispatch h actions args negate skip {} true]
  | .eval field condition =>
    let (result, e) := e.observe (do host.check e.flags (← Spec.read field) condition)
    e.reply (.truth result)
  | .value field =>
    let (v, e) := e.observe (do host.valueOf (← Spec.read field))
    e.reply (.value? v)
  | .fields field =>
    let (hs, e) := e.observe (host.fields field false)
    e.reply (.handles hs)
  | .exists field =>
    let (hs, e) := e.observe (host.fields field true)
    e.reply (.truth (!hs.isEmpty))
  | .state field =>
    let (hs, e) := e.observe (host.fields field false)
    e.reply (.fields (hs.filterMap host.form.field?))
  | .notify handles automatic => e.schedule [.notify h handles automatic, .answer .nothing]
  | .triggerAll =>
    (e.note (.triggeringAll host.form.id host.queries.length)).schedule
      (host.queries.map .trigger ++ [.answer .nothing])
  | .hasChanged => e.reply (.truth host.changed)
  | .negative name =>
    let (found, e) := e.negative h name
    e.reply (.text? found)
  | .searches => e.reply (.count host.resolver.searches)
  | .actionNames => e.reply (.names host.actions.names)
  | .actionExists name => e.reply (.truth (host.actions.contains name))
  | .registerAction a =>
    (e.updateHost h fun host =>
      { host with actions := host.actions.insert a.name (.scripted a) }).reply .nothing
  | .registerNegative action negative =>
    (e.updateHost h fun host =>
      { host with resolver := host.resolver.register action negative }).reply .nothing
  | .registerEvaluation pattern default t label =>
    match Evaluation.compile pattern default t.check label host.config.regex with
    | .ok entry =>
      (e.updateHost h fun host =>
        { host with evaluations := host.evaluations.insert entry }).reply .nothing
    | .error error => e.reply (.invalid error)
  | .info => e.reply (.host host.summary)
  | .setFlag .. | .dropRule _ | .dropHost | .query .. => e

/-- Performs a step. A step about the host keeps it in use to its end. -/
def performStep (e : Engine) (s : Step) : Engine :=
  match s with
  | .query name op => e.queryStep name op
  | .setFlag name value =>
    let ref := ⟨e.current, name⟩
    let listeners := (e.flag ref).listeners
    (e.updateFlag ref fun f => { f with value }).schedule
      [.flagSet listeners, .answer (.count listeners.length)]
  | .dropRule name =>
    let known := (e.session.rules.lookup name).isSome
    (e.updateSession fun s => { s with rules := s.rules.filter (·.1 != name) }).reply (.truth known)
  | .dropHost =>
    let host := e.session.host
    let e := e.updateSession fun s => { s with rules := [], host := none }
    match host with
    | some h => e.reply (.truth !(e.hostInUse h))
    | none => e.reply .nothing
  | s =>
    match e.session.host.bind fun h => (e.host? h).map fun host => (h, host) with
    | some (h, host) => (e.schedule [.hold [h] []]).hostStep h host s
    | none => e.reply .noHost

/-! ## Tasks -/

/-- Does one task, which has been taken from the agenda. -/
def perform (e : Engine) : Task → Engine
  | .step s => e.performStep s
  | .ran step => e.record [.ran step e.answer]
  | .answer a => e.reply a
  | .summarize q => e.reply (.query (e.summary q))
  | .hold .. => e
  | .chain f ops name => e.chain f ops name
  | .trigger q => e.trigger q
  | .round _ _ _ [] => e
  | .round q state skip (i :: rest) =>
    e.schedule [.deliver q i state skip, .round q state skip rest]
  | .deliver q i state skip => e.deliver q i state skip
  | .dispatch _ [] _ _ _ report answers => if answers then e.reply (.report report) else e
  | .dispatch h (t :: ts) args negate skip report answers =>
    e.dispatch h args negate skip report (.dispatch h ts args negate skip · answers) t
  | .perform h action args skip =>
    let classes := ((e.host? h).map (·.config.classes)).getD {}
    e.schedule (actionTasks classes h args skip action ++ [.hold [h] []])
  | .effect h field effect s skip answers => e.applyEffect h field effect s skip answers
  | .write h field v automatic => e.write h field v automatic
  | .log event => e.record [event]
  | .notify h changed automatic => e.notify h changed automatic
  | .inform [] .. => e
  | .inform (l :: ls) field v automatic =>
    (e.schedule [.inform ls field v automatic]).inform field v automatic l
  | .flagSet [] => e
  | .flagSet (.log label :: ls) => (e.record [.changed label]).schedule [.flagSet ls]
  | .flagSet (.query q :: ls) =>
    if e.queryInUse q then e.schedule [.trigger q, .hold [] [q], .flagSet ls]
    else e.schedule [.flagSet ls]

/-- Performs `n` tasks, or all if there are fewer. -/
def run : Nat → Engine → Engine
  | 0, e => e
  | n + 1, e =>
    match e.agenda with
    | [] => e
    | t :: ts => run n ({ e with agenda := ts }.perform t)

/-- Performs all tasks, and all that follows from them. There is no result if that takes more than
`fuel` tasks; with rules whose actions trigger each other for ever, no fuel is enough. -/
def finish? (fuel : Nat) (e : Engine) : Option Engine :=
  let e := e.run fuel
  if e.agenda.isEmpty then some e else none

theorem run_of_settled {e : Engine} (h : e.agenda = []) (n : Nat) : e.run n = e := by
  cases n <;> simp [run, h]

/-- Performing `m + n` tasks is performing `m` and then `n`. -/
theorem run_add (m n : Nat) (e : Engine) : e.run (m + n) = (e.run m).run n := by
  induction m generalizing e with
  | zero => simp [run]
  | succ m ih =>
    rw [Nat.succ_add]
    simp only [run]
    split
    · next h => rw [run_of_settled h]
    · exact ih _

/-- A run has come to its end when no task is left. -/
theorem finish?_eq_some_iff {fuel : Nat} {e e' : Engine} :
    e.finish? fuel = some e' ↔ e.run fuel = e' ∧ e'.agenda = [] := by
  simp only [finish?, List.isEmpty_iff]
  grind

/-- More fuel makes no difference to where a run ends. -/
theorem finish?_mono {m n : Nat} {e e' : Engine} (h : e.finish? m = some e') (hle : m ≤ n) :
    e.finish? n = some e' := by
  obtain ⟨rfl, hdone⟩ := finish?_eq_some_iff.1 h
  obtain ⟨k, rfl⟩ := Nat.exists_eq_add_of_le hle
  rw [finish?_eq_some_iff, run_add, run_of_settled hdone]
  exact ⟨rfl, hdone⟩

end Engine

end FormRules
