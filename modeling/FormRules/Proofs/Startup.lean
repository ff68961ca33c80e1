import FormRules.Proofs.Journal
import FormRules.Proofs.Notices
import FormRules.Proofs.Rosters
import Mathlib.Data.List.Find
import Mathlib.Data.List.Induction
import Mathlib.Data.List.Nodup

/-!
# Starting up

A bootstrap is told scripts and listeners in any order. It keeps one script for each form, in the
order in which the forms were first named, and of the scripts for a form the last
(`Registration.map_form_scripts`, `Registration.last?_of_mem`). When it runs, it first looks for a
form for each script, and fails before anything else if there is none. A form that is found is gone
for the scripts behind, but these are for other ids, so each finds the first form with its id all
the same (`Bootstrap.bind_eq_error`, `Bootstrap.bind_eq_ok`).

Then the scripts run one after the other. A `Launch` is one of them, with the engine in which it
starts: there its host is new and all of its steps are still to be done (`Launch.IsFresh`). A script
whose steps are all done has ended (`Launch.Ends`), and only then its form is announced and the next
script starts (`Launch.InTurn`). Rules of a script can trigger each other for ever; then the
bootstrap does not return, and nothing is announced of that script nor of those behind it
(`Bootstrap.IsStuck`). What a script adds to the log is never an announcement, so all announcements
in the log are those of the bootstrap, in their places (`Bootstrap.run_registered`).
-/

namespace FormRules

/-! ## Registrations -/

/-- What a bootstrap is told before it runs. -/
inductive Registration
  | script (s : FormScript)
  | listener (label : String)

namespace Registration

variable (rs : List Registration)

/-- The bootstrap that was told all this. -/
def toBootstrap : Bootstrap := rs.foldl (fun b r => match r with
  | script s => b.script s
  | listener label => b.listener label) {}

/-- The scripts, in the order in which they were told. -/
def scripts : List FormScript := rs.filterMap fun
  | script s => some s
  | listener _ => none

/-- The labels of the listeners. -/
def labels : List String := rs.filterMap fun
  | script _ => none
  | listener label => some label

/-- The ids of the forms that have scripts, in the order in which they were first named. -/
def forms : List String := ((scripts rs).map FormScript.form).eraseDups

/-- The last script for a form. -/
def last? (id : String) : Option FormScript := (scripts rs).reverse.find? (·.form = id)

/-- A script that is registered is the last one. -/
theorem scripts_append_script (s : FormScript) :
    scripts (rs ++ [.script s]) = scripts rs ++ [s] := by
  simp [scripts]

theorem scripts_append_listener (label : String) :
    scripts (rs ++ [.listener label]) = scripts rs := by
  simp [scripts]

/-- To register one more is to tell the bootstrap one more. -/
theorem toBootstrap_append_script (s : FormScript) :
    toBootstrap (rs ++ [.script s]) = (toBootstrap rs).script s := by
  simp [toBootstrap]

theorem toBootstrap_append_listener (label : String) :
    toBootstrap (rs ++ [.listener label]) = (toBootstrap rs).listener label := by
  simp [toBootstrap]

/-- A bootstrap has all listeners that were registered. -/
theorem listeners_toBootstrap : (toBootstrap rs).listeners = labels rs := by
  induction rs using List.reverseRecOn with
  | nil => rfl
  | append_singleton rs r ih =>
    cases r with
    | script s => simpa [toBootstrap_append_script, labels, Bootstrap.script] using ih
    | listener label => simp [toBootstrap_append_listener, labels, Bootstrap.listener, ih]

/-- A bootstrap has one script for each form, the last one, where the form was first named. -/
theorem scripts_toBootstrap :
    (toBootstrap rs).scripts = Roster.ofList FormScript.form (scripts rs) := by
  induction rs using List.reverseRecOn with
  | nil => rfl
  | append_singleton rs r ih =>
    cases r with
    | script s =>
      rw [toBootstrap_append_script, scripts_append_script, Roster.ofList_append_singleton, ← ih]
      rfl
    | listener label =>
      rw [toBootstrap_append_listener, scripts_append_listener]
      exact ih

/-- Forms keep the places that they got first. -/
theorem map_form_scripts : (toBootstrap rs).scripts.map FormScript.form = forms rs := by
  rw [scripts_toBootstrap, Roster.keys_ofList, forms]

/-- Each form is in one place. -/
theorem nodup_forms : (forms rs).Nodup := nodup_eraseDups _

/-- Each script that is kept is the last for its form. -/
theorem last?_of_mem {s : FormScript} (hs : s ∈ (toBootstrap rs).scripts) :
    last? rs s.form = some s := by
  rw [scripts_toBootstrap] at hs
  exact Roster.mem_ofList_iff.1 hs

example : (toBootstrap [.script ⟨"b", "first", []⟩, .script ⟨"a", "other", []⟩,
    .script ⟨"b", "last", []⟩]).scripts = [⟨"b", "last", []⟩, ⟨"a", "other", []⟩] := rfl

end Registration

/-! ## Binding -/

namespace Bootstrap

/-- The first form with this id. -/
def formOf? (forms : List (Form × Bool)) (id : String) : Option (Form × Bool) :=
  forms.find? fun f => f.1.id = id

/-- Taking the form of one id leaves the first form of every other. -/
theorem formOf?_eraseP (forms : List (Form × Bool)) {id id' : String} (hid : id ≠ id') :
    formOf? (forms.eraseP fun f => f.1.id = id) id' = formOf? forms id' := by
  unfold formOf?
  induction forms with
  | nil => rfl
  | cons f fs ih =>
    by_cases hf : f.1.id = id
    · have hf' : f.1.id ≠ id' := hf ▸ hid
      simp [hf, hid]
    · simp only [List.eraseP_cons, hf, decide_false, cond_false, List.find?_cons, ih]

/-- The first of these ids that no form has. -/
def firstUnknown? (forms : List (Form × Bool)) (ids : List String) : Option String :=
  ids.find? fun id => (formOf? forms id).isNone

/-- A form that is gone is missed by its own id only. -/
theorem firstUnknown?_eraseP (forms : List (Form × Bool)) {id : String} {ids : List String}
    (hid : id ∉ ids) :
    firstUnknown? (forms.eraseP fun f => f.1.id = id) ids = firstUnknown? forms ids :=
  List.find?_congr fun _ hmem => congrArg Option.isNone <|
    formOf?_eraseP forms fun heq => hid (heq ▸ hmem)

/-- A script takes the first form of its id, and the others take theirs from those that are left. -/
theorem bind_cons {forms : List (Form × Bool)} {s : FormScript} {f : Form × Bool}
    (hf : formOf? forms s.form = some f) (ss : List FormScript) : bind forms (s :: ss) =
      (bind (forms.eraseP fun f => f.1.id = s.form) ss).map fun bound => (s, f) :: bound := by
  unfold formOf? at hf
  simp [bind, hf]

variable {ss : List FormScript}

/-- Binding fails with the first id that no form has. -/
theorem bind_eq_error (hnodup : (ss.map FormScript.form).Nodup) {forms : List (Form × Bool)}
    {id : String} (h : firstUnknown? forms (ss.map FormScript.form) = some id) :
    bind forms ss = .error id := by
  induction ss generalizing forms with
  | nil => simp [firstUnknown?] at h
  | cons s ss ih =>
    obtain ⟨hnew, hrest⟩ := List.nodup_cons.1 hnodup
    cases hf : formOf? forms s.form with
    | none =>
      obtain rfl : s.form = id := by simpa [firstUnknown?, hf] using h
      unfold formOf? at hf
      simp [bind, hf]
    | some f =>
      have hlater : firstUnknown? forms (ss.map FormScript.form) = some id := by
        simpa [firstUnknown?, hf] using h
      rw [← firstUnknown?_eraseP forms hnew] at hlater
      rw [bind_cons hf, ih hrest hlater]
      rfl

/-- Binding gives each script the first form with its id. -/
theorem bind_eq_ok (hnodup : (ss.map FormScript.form).Nodup) {forms : List (Form × Bool)}
    (h : firstUnknown? forms (ss.map FormScript.form) = none) :
    ∃ bound, bind forms ss = .ok bound ∧ bound.map Prod.fst = ss ∧
      ∀ b ∈ bound, formOf? forms b.1.form = some b.2 := by
  induction ss generalizing forms with
  | nil => exact ⟨[], rfl, rfl, by simp⟩
  | cons s ss ih =>
    obtain ⟨hnew, hrest⟩ := List.nodup_cons.1 hnodup
    cases hf : formOf? forms s.form with
    | none => simp [firstUnknown?, hf] at h
    | some f =>
      have hlater : firstUnknown? forms (ss.map FormScript.form) = none := by
        simpa [firstUnknown?, hf] using h
      rw [← firstUnknown?_eraseP forms hnew] at hlater
      obtain ⟨bound, hbound, hscripts, hforms⟩ := ih hrest hlater
      refine ⟨(s, f) :: bound, ?_, by simp [hscripts], ?_⟩
      · rw [bind_cons hf, hbound]
        rfl
      · refine List.forall_mem_cons.2 ⟨hf, fun b hb => ?_⟩
        have hmem : b.1.form ∈ ss.map FormScript.form :=
          hscripts ▸ List.mem_map_of_mem (List.mem_map_of_mem hb)
        have hne : s.form ≠ b.1.form := fun heq => hnew (heq ▸ hmem)
        exact (formOf?_eraseP forms hne).symm.trans (hforms b hb)

end Bootstrap

/-! ## Launches -/

/-- The hosts are those that were there, each in its place. -/
abbrev Host.Stay : List Host → List Host → Prop := List.Forall₂ Host.Grows

theorem Host.Stay.refl (hosts : List Host) : Host.Stay hosts hosts :=
  List.forall₂_same.2 fun host _ => .refl host

/-- Hosts that stay twice stay. -/
theorem Host.Stay.trans {xs ys zs : List Host} (h : Host.Stay xs ys) (h' : Host.Stay ys zs) :
    Host.Stay xs zs := by
  induction h generalizing zs with
  | nil => exact h'
  | cons hxy _ ih =>
    obtain ⟨z, zs, hyz, hrest, rfl⟩ := List.forall₂_cons_left_iff.1 h'
    exact .cons (hxy.trans hyz) (ih hrest)

/-- Hosts stay along a run, changed by their own tasks. -/
theorem Host.Stay.run (e : Engine) (n : Nat) (hlength : (e.run n).hosts.length = e.hosts.length) :
    Host.Stay e.hosts (e.run n).hosts := by
  refine List.forall₂_iff_get.2 ⟨hlength.symm, fun i hi hi' => ?_⟩
  obtain ⟨host, hrun, hgrows⟩ := Engine.exists_host_run (List.getElem?_eq_getElem hi) n
  obtain rfl := Option.some.inj ((List.getElem?_eq_getElem hi').symm.trans hrun)
  exact hgrows

/-- A script with its form, the engine in which it starts, and how many tasks it may take. -/
structure Launch where
  script : FormScript
  form : Form
  watched : Bool
  start : Engine
  tasks : Nat

namespace Launch

variable (l : Launch) (config : Config Action)

/-- The host that the script gets. -/
def host : Host := .new config l.form l.watched

/-- The engine when the tasks have been performed. -/
def finish : Engine := l.start.run l.tasks

/-- All steps of the script have been performed then, and all that follows from them. -/
def Ends : Prop := l.finish.agenda = []

/-- What the script adds to the log. -/
def events : List Event := l.finish.log.toList.drop l.start.log.size

/-- The launch in the log: that the script starts, what it adds, and that its form is ready. -/
def story (listeners : List String) : List Event :=
  .script l.script.label l.form.id :: l.events ++
    .diagnostic (.formReady l.script.form) ::
      listeners.map fun label => .formReady label l.script.form

/-- All the steps of the script are still to be done, in a session of its own, on a new host behind
those that are there. -/
structure IsFresh (before : List Host) : Prop where
  hosts : l.start.hosts = before ++ [l.host config]
  session : l.start.session = { host := some before.length, shown := l.form.fields }
  agenda : l.start.agenda = Task.ofScript l.script.steps

/-- One launch follows the other, each once the one before has ended, from these hosts to those. -/
inductive InTurn : List Host → List Launch → List Host → Prop
  | done (hosts : List Host) : InTurn hosts [] hosts
  | next {before after : List Host} {l : Launch} {ls : List Launch}
      (fresh : l.IsFresh config before) (ends : l.Ends) (rest : InTurn l.finish.hosts ls after) :
      InTurn before (l :: ls) after

variable {l config} {before after : List Host} {ls : List Launch}

/-- What runs for a script only adds to the log. -/
theorem IsFresh.records (h : l.IsFresh config before) (n : Nat) :
    l.start.Records (l.start.run n) :=
  Engine.records_run (h.agenda ▸ Task.announces_ofScript _) n

/-- The log of a script is what was there before, and then its own events. -/
theorem IsFresh.log_finish (h : l.IsFresh config before) :
    l.finish.log.toList = l.start.log.toList ++ l.events := by
  obtain ⟨events, hlog, -⟩ := (h.records l.tasks).log
  simp [Launch.events, Launch.finish, hlog]

/-- Announcements are not for scripts to make. -/
theorem IsFresh.unannounced (h : l.IsFresh config before) : Event.Unannounced l.events := by
  obtain ⟨events, hlog, hevents⟩ := (h.records l.tasks).log
  simpa [Launch.events, Launch.finish, hlog] using hevents

/-- The hosts stay in their places, the new one behind the others. -/
theorem IsFresh.stay (h : l.IsFresh config before) :
    Host.Stay (before ++ [l.host config]) l.finish.hosts :=
  h.hosts ▸ Host.Stay.run l.start l.tasks (h.records l.tasks).hosts

/-- No script announces anything. -/
theorem InTurn.unannounced (h : InTurn config before ls after) :
    ∀ l ∈ ls, Event.Unannounced l.events := by
  induction h with
  | done => simp
  | next fresh _ _ ih => exact List.forall_mem_cons.2 ⟨fresh.unannounced, ih⟩

/-- Each launch adds one host, and the others stay in their places. -/
theorem InTurn.stay (h : InTurn config before ls after) :
    Host.Stay (before ++ ls.map (host · config)) after := by
  induction h with
  | done hosts => simpa using Host.Stay.refl hosts
  | @next before after l ls fresh _ rest ih =>
    have hgrown := List.rel_append fresh.stay (Host.Stay.refl (ls.map (host · config)))
    simpa using Host.Stay.trans hgrown ih

end Launch

namespace Bootstrap

variable (fuel : Nat) (listeners : List String) (config : Config Action)

/-- The launch of a script in the engine `e`. -/
def launch (e : Engine) (bound : FormScript × Form × Bool) : Launch where
  script := bound.1
  form := bound.2.1
  watched := bound.2.2
  start :=
    let (h, e) := e.addHost (.new config bound.2.1 bound.2.2)
    let e := { e with pinned := h :: e.pinned }.record [.script bound.1.label bound.2.1.id]
    { e.openSession (some h) with agenda := Task.ofScript bound.1.steps }
  tasks := fuel

/-- What the bootstrap tells once a script is done. -/
def announce (id : String) (e : Engine) : Engine :=
  (e.note (.formReady id)).record (listeners.map fun label => .formReady label id)

/-- A script is launched, performed and announced. -/
theorem runScript_eq (e : Engine) (bound : FormScript × Form × Bool) :
    runScript fuel listeners config e bound =
      ((launch fuel config e bound).start.finish? fuel).map (announce listeners bound.1.form) := by
  rw [Option.map_eq_bind]
  rfl

/-- A script starts on a new host, which is the last one. -/
theorem isFresh_launch (e : Engine) (bound : FormScript × Form × Bool) :
    (launch fuel config e bound).IsFresh config e.hosts where
  hosts := rfl
  session := by simp [launch, Engine.openSession, Engine.session, Engine.host?, Engine.addHost,
    Engine.record, Host.new]
  agenda := rfl

/-- A script is announced before it starts. -/
theorem log_launch (e : Engine) (bound : FormScript × Form × Bool) :
    (launch fuel config e bound).start.log.toList =
      e.log.toList ++ [.script bound.1.label bound.2.1.id] := by
  simp [launch, Engine.openSession, Engine.record, Engine.addHost]

variable {fuel}

/-- A script that has been run has ended, and what that adds to the log is the story of its
launch. -/
theorem ends_of_runScript {e e' : Engine} {bound : FormScript × Form × Bool}
    (h : runScript fuel listeners config e bound = some e') :
    (launch fuel config e bound).Ends ∧ e'.hosts = (launch fuel config e bound).finish.hosts ∧
      e'.log.toList = e.log.toList ++ (launch fuel config e bound).story listeners := by
  rw [runScript_eq] at h
  obtain ⟨finish, hfinish, rfl⟩ := Option.map_eq_some_iff.1 h
  obtain ⟨rfl, hdone⟩ := Engine.finish?_eq_some_iff.1 hfinish
  refine ⟨hdone, rfl, ?_⟩
  have hlog := (isFresh_launch fuel config e bound).log_finish
  rw [log_launch, Launch.finish] at hlog
  simp only [announce, Engine.note, Engine.record, Array.toList_append]
  simp [Launch.story, launch] at hlog ⊢
  simp [hlog]

/-- Running all scripts is one launch after the other. -/
theorem exists_launches {bound : List (FormScript × Form × Bool)} {e e' : Engine}
    (h : bound.foldlM (runScript fuel listeners config) e = some e') :
    ∃ launches : List Launch,
      launches.map (fun l => (l.script, l.form, l.watched)) = bound ∧
      e'.log.toList = e.log.toList ++ launches.flatMap (Launch.story · listeners) ∧
      Launch.InTurn config e.hosts launches e'.hosts := by
  induction bound generalizing e with
  | nil =>
    obtain rfl : e = e' := Option.some.inj h
    exact ⟨[], rfl, by simp, .done _⟩
  | cons b bound ih =>
    rw [List.foldlM_cons] at h
    obtain ⟨next, hnext, hrest⟩ := Option.bind_eq_some_iff.1 h
    obtain ⟨hends, hhosts, hlog⟩ := ends_of_runScript listeners config hnext
    obtain ⟨launches, hbound, hlogs, hturn⟩ := ih hrest
    refine ⟨launch fuel config e b :: launches, by simp [hbound, launch], ?_, ?_⟩
    · simp [hlogs, hlog]
    · exact .next (isFresh_launch fuel config e b) hends (hhosts ▸ hturn)

/-! ## More fuel -/

section Mono

variable {m n : Nat} (hle : m ≤ n)

include hle

/-- More fuel makes no difference to a script that has been run. -/
theorem runScript_mono {e e' : Engine} {b : FormScript × Form × Bool}
    (h : runScript m listeners config e b = some e') :
    runScript n listeners config e b = some e' := by
  rw [runScript_eq] at h ⊢
  obtain ⟨finish, hfinish, rfl⟩ := Option.map_eq_some_iff.1 h
  have hmore : (launch n config e b).start.finish? n = some finish := Engine.finish?_mono hfinish hle
  rw [hmore, Option.map_some]

/-- Scripts that have ended with some fuel end in the same way with more. -/
theorem foldlM_runScript_mono {bound : List (FormScript × Form × Bool)} {e e' : Engine}
    (h : bound.foldlM (runScript m listeners config) e = some e') :
    bound.foldlM (runScript n listeners config) e = some e' := by
  induction bound generalizing e with
  | nil => exact h
  | cons b bound ih =>
    rw [List.foldlM_cons] at h ⊢
    obtain ⟨next, hnext, hrest⟩ := Option.bind_eq_some_iff.1 h
    exact Option.bind_eq_some_iff.2 ⟨next, runScript_mono listeners config hle hnext, ih hrest⟩

end Mono

/-- Running all scripts comes to no end only if one of them does not, behind others that do. -/
theorem exists_endless {bound : List (FormScript × Form × Bool)} {e : Engine}
    (h : ∀ fuel, bound.foldlM (runScript fuel listeners config) e = none) :
    ∃ (launches : List Launch) (l : Launch) (hosts : List Host),
      (launches ++ [l]).map (fun l => (l.script, l.form, l.watched)) <+: bound ∧
      Launch.InTurn config e.hosts launches hosts ∧ l.IsFresh config hosts ∧
      (∀ n, (l.start.run n).agenda ≠ []) ∧
      l.start.log.toList = e.log.toList ++ launches.flatMap (Launch.story · listeners) ++
        [.script l.script.label l.form.id] := by
  induction bound generalizing e with
  | nil => exact absurd (h 0) (Option.some_ne_none e)
  | cons b bound ih =>
    by_cases hnext : ∃ fuel next, runScript fuel listeners config e b = some next
    · obtain ⟨fuel, next, hnext⟩ := hnext
      obtain ⟨hends, hhosts, hlog⟩ := ends_of_runScript listeners config hnext
      have hrest : ∀ more, bound.foldlM (runScript more listeners config) next = none := by
        refine fun more => Option.eq_none_iff_forall_ne_some.2 fun e' he' => ?_
        have hall : (b :: bound).foldlM (runScript (max fuel more) listeners config) e = some e' := by
          rw [List.foldlM_cons]
          exact Option.bind_eq_some_iff.2 ⟨next,
            runScript_mono listeners config (le_max_left fuel more) hnext,
            foldlM_runScript_mono listeners config (le_max_right fuel more) he'⟩
        rw [h] at hall
        cases hall
      obtain ⟨launches, l, hosts, hbound, hturn, hfresh, hendless, hlogs⟩ := ih hrest
      refine ⟨launch fuel config e b :: launches, l, hosts, ?_, ?_, hfresh, hendless, ?_⟩
      · exact List.cons_prefix_cons.2 ⟨rfl, hbound⟩
      · exact .next (isFresh_launch fuel config e b) hends (hhosts ▸ hturn)
      · simp [hlogs, hlog]
    · refine ⟨[], launch 0 config e b, e.hosts, ⟨bound, rfl⟩, .done _, isFresh_launch 0 config e b,
        fun n hdone => ?_, ?_⟩
      · have hfinish : (launch n config e b).start.finish? n =
            some ((launch n config e b).start.run n) :=
          Engine.finish?_eq_some_iff.2 ⟨rfl, hdone⟩
        exact hnext ⟨n, announce listeners b.1.form ((launch n config e b).start.run n), by
          rw [runScript_eq, hfinish, Option.map_some]⟩
      · rw [log_launch, List.flatMap_nil, List.append_nil]
        rfl

/-! ## Runs -/

/-- The launch is that of the last script for its form, on the first form with the id. -/
structure Serves (rs : List Registration) (forms : List (Form × Bool)) (l : Launch) :
    Prop where
  script : Registration.last? rs l.script.form = some l.script
  form : Bootstrap.formOf? forms l.script.form = some (l.form, l.watched)

/-- The forms of the registrations `rs` have been started: `e` is what there is then, and the
launches have told of themselves in `log`. -/
structure HasStarted (rs : List Registration) (config : Config Action) (forms : List (Form × Bool))
    (e : Engine) (launches : List Launch) (log : List Event) : Prop where
  /-- There is a launch for each form that has scripts, in the order of the registrations. -/
  order : launches.map (·.script.form) = Registration.forms rs
  /-- Of the scripts for a form, the last was run, on the first form with the id. -/
  serves : ∀ l ∈ launches, Serves rs forms l
  /-- Each script was run on a host of its own and to its end, one after the other. -/
  turns : Launch.InTurn config [] launches e.hosts
  /-- What the scripts add to the log are no announcements. -/
  quiet : ∀ l ∈ launches, Event.Unannounced l.events
  /-- The launches stand in the log one after the other, and behind them that all are ready. -/
  log : log = launches.flatMap (Launch.story · (Registration.labels rs)) ++
    .diagnostic (.allReady launches.length) :: (Registration.labels rs).map .allReady
  /-- The hosts are those of the launches, in their order, whatever the scripts did to them. -/
  hosts : Host.Stay (launches.map (Launch.host · config)) e.hosts

/-- The forms of the registrations `rs` have been started up to the launch `l`, whose script never
comes to its end. -/
structure IsStuck (rs : List Registration) (config : Config Action) (forms : List (Form × Bool))
    (launches : List Launch) (l : Launch) : Prop where
  /-- The launches are for the first forms that have scripts. -/
  order : (launches ++ [l]).map (·.script.form) <+: Registration.forms rs
  /-- Of the scripts for a form, the last is run, on the first form with the id. -/
  serves : ∀ l' ∈ launches ++ [l], Serves rs forms l'
  /-- The scripts before have been run to their ends, and this one is run on a new host. -/
  turns : ∃ hosts, Launch.InTurn config [] launches hosts ∧ l.IsFresh config hosts
  /-- There is always something left to do. -/
  endless : ∀ n, (l.start.run n).agenda ≠ []
  /-- At any time, the last thing that was announced is the start of this script. -/
  log : ∀ n, ∃ events, Event.Unannounced events ∧
    (l.start.run n).log.toList = launches.flatMap (Launch.story · (Registration.labels rs)) ++
      .script l.script.label l.form.id :: events

/-- Where binding succeeds, the launches of the bound scripts serve the registrations. -/
theorem serves_of_bind {rs : List Registration} {forms : List (Form × Bool)}
    {bound : List (FormScript × Form × Bool)} {launches : List Launch}
    (hscripts : bound.map Prod.fst = (Registration.toBootstrap rs).scripts)
    (hfound : ∀ b ∈ bound, formOf? forms b.1.form = some b.2)
    (hbound : launches.map (fun l => (l.script, l.form, l.watched)) <+: bound) :
    launches.map (·.script.form) <+: Registration.forms rs ∧
      ∀ l ∈ launches, Serves rs forms l := by
  have hmem : ∀ l ∈ launches, (l.script, l.form, l.watched) ∈ bound := fun l hl =>
    hbound.subset (List.mem_map_of_mem (f := fun l : Launch => (l.script, l.form, l.watched)) hl)
  refine ⟨?_, fun l hl => ⟨?_, hfound _ (hmem l hl)⟩⟩
  · rw [← Registration.map_form_scripts, ← hscripts]
    have hforms := (hbound.map Prod.fst).map FormScript.form
    simpa only [List.map_map, Function.comp_def] using hforms
  · exact Registration.last?_of_mem rs (hscripts ▸ List.mem_map_of_mem (f := Prod.fst) (hmem l hl))

/-- What a bootstrap returns once the last script is done. -/
def allReady (listeners : List String) (n : Nat) (e : Engine) :
    Except ConfigError Engine × List Event :=
  let e := (e.note (.allReady n)).record (listeners.map .allReady)
  (.ok e, e.log.toList)

/-- Where binding succeeds, a bootstrap runs the scripts and tells that all forms are ready. -/
theorem run?_of_bind {rs : List Registration} {forms : List (Form × Bool)}
    {bound : List (FormScript × Form × Bool)}
    (hbind : bind forms (Registration.toBootstrap rs).scripts = .ok bound) :
    (Registration.toBootstrap rs).run? fuel config forms =
      (bound.foldlM (runScript fuel (Registration.labels rs) config) {}).map
        (allReady (Registration.labels rs) bound.length) := by
  simp only [run?, hbind, Registration.listeners_toBootstrap, Option.map_eq_bind]
  rfl

/-- A bootstrap fails with the first id that no form has, and then nothing else has happened. If
there is none, it runs the last script for each id on the first form with the id, each to its end,
in the order in which the ids were first named, and tells all listeners after each script and behind
the last. It returns unless one of these scripts never comes to its end. -/
theorem run_registered (rs : List Registration) (config : Config Action)
    (forms : List (Form × Bool)) :
    match firstUnknown? forms (Registration.forms rs) with
    | some id => ∀ r, (Registration.toBootstrap rs).Returns config forms r ↔
        r = (.error (.unknownForm id), [.diagnostic (.unknownForm id)])
    | none =>
      (∃ e launches log, HasStarted rs config forms e launches log ∧
        ∀ r, (Registration.toBootstrap rs).Returns config forms r ↔ r = (.ok e, log)) ∨
      (∃ launches l, IsStuck rs config forms launches l ∧
        ∀ r, ¬(Registration.toBootstrap rs).Returns config forms r) := by
  have hforms := Registration.map_form_scripts rs
  have hnodup := hforms ▸ Registration.nodup_forms rs
  split
  · next id hid =>
    rw [← hforms] at hid
    simp [Returns, run?, bind_eq_error hnodup hid, eq_comm]
  · next hknown =>
    rw [← hforms] at hknown
    obtain ⟨bound, hbind, hscripts, hfound⟩ := bind_eq_ok hnodup hknown
    simp only [Returns, run?_of_bind config hbind, Option.map_eq_some_iff]
    by_cases hruns : ∃ fuel e,
        bound.foldlM (runScript fuel (Registration.labels rs) config) {} = some e
    · left
      obtain ⟨fuel, e, hrun⟩ := hruns
      obtain ⟨launches, hbound, hlog, hturn⟩ :=
        exists_launches (Registration.labels rs) config hrun
      have hprefix : launches.map (fun l => (l.script, l.form, l.watched)) <+: bound := by
        simp [hbound]
      have hlength : bound.length = launches.length := by simp [← hbound]
      refine ⟨_, launches, _, ?_, fun r => ⟨?_, fun hr => ⟨fuel, e, hrun, hr.symm⟩⟩⟩
      · exact {
          order := by rw [← hforms, ← hscripts, ← hbound, List.map_map, List.map_map]; rfl
          serves := (serves_of_bind hscripts hfound hprefix).2
          turns := hturn
          quiet := hturn.unannounced
          log := by simp [Engine.note, Engine.record, hlog, hlength]
          hosts := hturn.stay }
      · rintro ⟨fuel', e', hrun', rfl⟩
        have hmore := foldlM_runScript_mono (Registration.labels rs) config
          (le_max_left fuel fuel') hrun
        rw [foldlM_runScript_mono (Registration.labels rs) config (le_max_right fuel fuel') hrun']
          at hmore
        rw [Option.some.inj hmore]
        rfl
    · right
      have hnone : ∀ fuel,
          bound.foldlM (runScript fuel (Registration.labels rs) config) {} = none := fun fuel =>
        Option.eq_none_iff_forall_ne_some.2 fun e hrun => hruns ⟨fuel, e, hrun⟩
      obtain ⟨launches, l, hosts, hbound, hturn, hfresh, hendless, hlog⟩ :=
        exists_endless (Registration.labels rs) config hnone
      have hserves := serves_of_bind hscripts hfound hbound
      refine ⟨launches, l, ?_, ?_⟩
      · exact {
          order := hserves.1
          serves := hserves.2
          turns := ⟨hosts, hturn, hfresh⟩
          endless := hendless
          log := fun n => by
            obtain ⟨events, hevents, hquiet⟩ := (hfresh.records n).log
            exact ⟨events, hquiet, by simp [hevents, hlog]⟩ }
      · rintro r ⟨fuel, e, hrun, -⟩
        exact hruns ⟨fuel, e, hrun⟩

end Bootstrap

end FormRules
