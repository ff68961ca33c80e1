import FormRules.Proofs.Dispatches
import FormRules.Proofs.Repetition
import FormRules.Proofs.Resolution

/-!
# The class of required fields

Four actions switch whether a field is required, and with it the class that marks required fields.
Each of them is two effects with one switch, first on the flag and then on the class, and each effect
looks at its own property only. Setting or unsetting both makes them agree, whatever they were.
Toggling both turns each of them over, so they agree afterwards just if they agreed before
(`Engine.indicator_agrees_iff`).

That the second effect finds the fields of the first is because identifiers see ids and values only,
and these stay (`Form.pick_require`); and a field that is addressed is turned over once because it is
found once.
-/

namespace FormRules

/-! ## The flag and the class of a field -/

/-- Whether the field is required, and whether it carries the class. -/
def FieldState.marks (c : String) (f : FieldState) : Bool × Bool := (f.required, f.hasClass c)

/-- What a switch makes of the two marks of a field. -/
def Switch.turn (s : Switch) (m : Bool × Bool) : Bool × Bool := (s.next m.1, s.next m.2)

/-- Both marks are brought to one state, or both are turned over. -/
theorem Switch.turn_agrees_iff (s : Switch) (m : Bool × Bool) :
    (s.turn m).1 = (s.turn m).2 ↔ m.1 = m.2 ∨ s ≠ .toggle := by
  obtain ⟨flag, mark⟩ := m
  cases s <;> cases flag <;> cases mark <;> simp [turn, next]

/-- The field that is brought to the state that a switch wants. -/
def Effect.turned (e : Effect) (s : Switch) (f : FieldState) : FieldState :=
  if e.holds f = s.next (e.holds f) then f else e.put (s.next (e.holds f)) f

theorem Effect.hasClass_put (c : String) (on : Bool) (f : FieldState) :
    ((Effect.classed c).put on f).hasClass c = on := by
  cases on <;> simp [put, FieldState.hasClass]

/-- The first effect of the four actions leaves the class. -/
theorem Effect.marks_turned_required (c : String) (s : Switch) (f : FieldState) :
    (Effect.required.turned s f).marks c = (s.next f.required, f.hasClass c) := by
  unfold turned
  split
  · next hsame => exact Prod.ext hsame rfl
  · rfl

/-- And the second one leaves the flag. -/
theorem Effect.marks_turned_classed (c : String) (s : Switch) (f : FieldState) :
    ((Effect.classed c).turned s f).marks c = (f.required, s.next (f.hasClass c)) := by
  unfold turned
  split
  · next hsame => exact Prod.ext rfl hsame
  · exact Prod.ext rfl (hasClass_put c _ f)

/-! ## The flag and the class in a form -/

namespace Form

variable {form : Form} {hs : List Handle} {e : Effect} {c : String}

/-- The marks of the field behind a handle. -/
def marks? (form : Form) (c : String) (k : Handle) : Option (Bool × Bool) :=
  (form.field? k).map (FieldState.marks c)

/-- What the four actions do to the fields `hs`. -/
def require (form : Form) (c : String) (hs : List Handle) (s : Switch) : Form :=
  ((form.apply hs .required s).1.apply hs (.classed c) s).1

section Plain

variable (hchecked : e ≠ .checked) (hoption : e ≠ .optionVisible)

include hchecked in
theorem field?_applyOne (form : Form) (s : Switch) (h k : Handle) :
    (form.applyOne e s h).1.field? k =
      (form.field? k).map fun f => if h = k then e.turned s f else f := by
  unfold applyOne
  cases hf : form.field? h with
  | none =>
    rcases eq_or_ne h k with rfl | hk
    · simp [hf]
    · simp [hk]
  | some f =>
    have hturned : ∀ g, form.field? h = some g → g = f := fun g hg =>
      Option.some.inj (hg.symm.trans hf)
    dsimp only
    split
    · next hsame =>
      rcases eq_or_ne h k with rfl | hk
      · simp [hf, Effect.turned, ← hsame]
      · simp [hk]
    · next hother =>
      simp only [switchField, hchecked, false_and, if_false, field?_modify]
      rcases eq_or_ne h k with rfl | hk
      · simp [hf, Effect.turned, hother]
      · simp [hk]

include hchecked in
/-- Of the effects, only that on checks is reported. -/
theorem snd_apply (form : Form) (hs : List Handle) (s : Switch) : (form.apply hs e s).2 = [] := by
  have hone : ∀ (form : Form) h, (form.applyOne e s h).2 = false := by
    intro form h
    unfold applyOne
    split
    · rfl
    · dsimp only
      split
      · rfl
      · simp [Effect.isCheck, hchecked]
  have heach : ∀ form : Form, (applyEach (fun form h => form.applyOne e s h) form hs).2 = [] := by
    induction hs with
    | nil => exact fun _ => rfl
    | cons h hs ih =>
      intro form
      simp only [applyEach, hone, Bool.false_eq_true, if_false, ih]
  exact heach form

include hchecked hoption in
/-- What identifiers and conditions see stays. -/
theorem pick_apply (form : Form) (hs : List Handle) (s : Switch) (spec : Spec) :
    (form.apply hs e s).1.pick spec = form.pick spec := by
  have hreports := reports_apply form hs hoption s
  rw [snd_apply hchecked] at hreports
  exact (hreports.agree (by simp)).pick

include hchecked hoption in
/-- Each addressed field is brought to the wanted state, once. -/
theorem marks?_apply (form : Form) (hnodup : hs.Nodup) (s : Switch) (c : String) (k : Handle) :
    (form.apply hs e s).1.marks? c k =
      (form.field? k).map fun f => (if k ∈ hs then e.turned s f else f).marks c := by
  have heach : ∀ form : Form, (hs.foldl (fun form h => (form.applyOne e s h).1) form).field? k =
      (form.field? k).map fun f => if k ∈ hs then e.turned s f else f := by
    induction hs with
    | nil => simp
    | cons h hs ih =>
      intro form
      obtain ⟨hh, hnodup⟩ := List.nodup_cons.1 hnodup
      rw [List.foldl_cons, ih hnodup, field?_applyOne hchecked, Option.map_map]
      refine congrArg (Option.map · _) (funext fun f => ?_)
      rcases eq_or_ne k h with rfl | hk
      · simp [hh]
      · simp [hk, hk.symm]
  simp only [apply, if_neg hoption, marks?, field?_refresh, fst_applyEach, heach, Option.map_map]
  rfl

end Plain

theorem pick_require (form : Form) (c : String) (hs : List Handle) (s : Switch) (spec : Spec) :
    (form.require c hs s).pick spec = form.pick spec := by
  rw [require, pick_apply (by simp) (by simp), pick_apply (by simp) (by simp)]

/-- The two marks of an addressed field are switched alike, and those of others stay. -/
theorem marks?_require (form : Form) (c : String) (hnodup : hs.Nodup) (s : Switch) (k : Handle) :
    (form.require c hs s).marks? c k =
      (form.marks? c k).map fun m => if k ∈ hs then s.turn m else m := by
  have hfirst := marks?_apply (e := .required) (by simp) (by simp) form hnodup s c k
  have hsecond := marks?_apply (e := .classed c) (by simp) (by simp) (form.apply hs .required s).1
    hnodup s c k
  rw [require, hsecond]
  rw [marks?] at hfirst ⊢
  cases hf : form.field? k with
  | none =>
    rw [hf] at hfirst
    rw [Option.map_eq_none_iff.1 hfirst]
    rfl
  | some f =>
    rw [hf] at hfirst
    obtain ⟨g, hg, hmarks⟩ := Option.map_eq_some_iff.1 hfirst
    rw [hg, Option.map_some, Option.map_some, Option.map_some, Option.some.injEq]
    by_cases hk : k ∈ hs
    · simp only [if_pos hk, Effect.marks_turned_required] at hmarks ⊢
      obtain ⟨hflag, hmark⟩ := Prod.mk.inj hmarks
      rw [Effect.marks_turned_classed, hflag, hmark]
      rfl
    · simpa only [if_neg hk] using hmarks

end Form

/-! ## Calls of the actions -/

/-- A call of one of the four actions. Where the action has its switch from tells which one it is. -/
structure RequiredCall where
  source : SwitchSource
  args : Args
  skip : Bool

namespace RequiredCall

/-- The name of the action. -/
def name (call : RequiredCall) : String :=
  match call.source with
  | .argument => "required"
  | .fixed .set => "setRequired"
  | .fixed .unset => "unsetRequired"
  | .fixed .toggle => "toggleRequired"

/-- The switch for its arguments. -/
def switch (call : RequiredCall) : Switch := call.source.read call.args

/-- The fields that it addresses. -/
def fields (call : RequiredCall) (form : Form) : List Handle :=
  form.pick (Spec.lenient call.args.field)

set_option maxRecDepth 100000 in
theorem get?_name (call : RequiredCall) : Config.builtin.actions.get? call.name =
    some (.builtin (.required call.source)) := by
  rcases call with ⟨s | _, args, skip⟩
  · cases s <;> rfl
  · rfl

/-- What calls make of the marks of a field. -/
def turns (calls : List RequiredCall) (form : Form) (k : Handle) (m : Bool × Bool) : Bool × Bool :=
  calls.foldl (fun m call => if k ∈ call.fields form then call.switch.turn m else m) m

/-- The marks agree from the first call on that sets or unsets them. -/
theorem turns_agrees_iff (calls : List RequiredCall) (form : Form) (k : Handle) (m : Bool × Bool) :
    (turns calls form k m).1 = (turns calls form k m).2 ↔ m.1 = m.2 ∨
      ∃ call ∈ calls, k ∈ call.fields form ∧ call.switch ≠ .toggle := by
  induction calls generalizing m with
  | nil => simp [turns]
  | cons call calls ih =>
    have hcons : turns (call :: calls) form k m =
        turns calls form k (if k ∈ call.fields form then call.switch.turn m else m) := rfl
    rw [hcons, ih, List.exists_mem_cons_iff, ← or_assoc]
    refine or_congr_left ?_
    split
    · next hk => simp [Switch.turn_agrees_iff, hk]
    · next hk => simp [hk]

theorem nodup_fields (call : RequiredCall) (form : Form) : (call.fields form).Nodup := by
  unfold fields
  cases Spec.lenient call.args.field with
  | all => exact List.nodup_range
  | fields ss => exact (form.resolves_pick ss).nodup

end RequiredCall

theorem Host.value_fields_pick (host : Host) (text : String) (quiet : Bool) :
    (host.fields text quiet).value = host.form.pick (Spec.lenient text) := by
  rw [fields, Traced.value_bind, Spec.value_read, value_resolve]

namespace Engine

variable {e : Engine} {h : HostId} {host : Host}

/-- The calls are made one after the other, each comes to its end, and its report is clean. -/
inductive Requires (h : HostId) : Engine → List RequiredCall → Engine → Prop
  | nil {e : Engine} : Requires h e [] e
  | cons {e e₁ e' : Engine} {call : RequiredCall} {calls : List RequiredCall}
      (hfirst : e.Applies h [.named call.name] call.args false call.skip
        (.of [.applied call.name]) e₁) (hrest : Requires h e₁ calls e') :
      Requires h e (call :: calls) e'

/-- An effect that no one hears of is done at once, whatever else is waiting. -/
theorem exists_performs_effect (hhost : e.host? h = some host) (effect : Effect)
    (hchecked : effect ≠ .checked) (field : String) (s : Switch) (skip : Bool) :
    ∃ f : Engine, f.host? h = some { host with
        form := (host.form.apply (host.form.pick (Spec.lenient field)) effect s).1 } ∧
      ∀ us, (e.schedule us).Performs [.effect h field effect s skip false] (f.schedule us) := by
  let hs := (host.fields field false).value
  let form := (host.form.apply hs effect s).1
  let shown := (e.observe (host.fields field false)).2.updateHost h fun x => { x with form }
  let f := if host.watched then shown.record [.applied hs effect s skip []] else shown
  have hhs : hs = host.form.pick (Spec.lenient field) := host.value_fields_pick field false
  have hf : f.host? h = some { host with form } := by
    have hshown : shown.host? h = some { host with form } := host?_updateForm hhost form
    simp only [f]
    split <;> exact hshown
  have hagenda : f.agenda = e.agenda := by
    simp only [f]
    split <;> rfl
  refine ⟨f, hhs ▸ hf, fun us => ?_⟩
  have hperform : (e.schedule us).perform (.effect h field effect s skip false) =
      (f.schedule us).schedule [.notify h [] true] := by
    have hhost' : (e.schedule us).host? h = some host := hhost
    have happly : host.form.apply (host.fields field false).value effect s = (form, []) :=
      Prod.ext rfl (Form.snd_apply hchecked host.form hs s)
    change (e.schedule us).applyEffect h field effect s skip false = _
    simp only [applyEffect, hhost', observe, happly, f]
    split <;> rfl
  rw [performs_singleton hperform (by simp [schedule, hagenda])]
  have hnotify : (f.schedule us).perform (.notify h [] true) = (f.schedule us).schedule [] := rfl
  rw [performs_singleton hnotify rfl, performs_nil]

/-- A call switches the two marks of the fields that it addresses. -/
theorem exists_applies_required (hhost : e.host? h = some host)
    (hactions : ∀ call : RequiredCall,
      host.actions.get? call.name = Config.builtin.actions.get? call.name)
    (hclass : host.config.classes.requiredIndicator ≠ "") (call : RequiredCall) :
    ∃ f : Engine, f.host? h = some { host with
        form := host.form.require host.config.classes.requiredIndicator (call.fields host.form)
          call.switch } ∧
      e.Applies h [.named call.name] call.args false call.skip (.of [.applied call.name]) f := by
  let started := e.note (.applyingAction call.name call.skip)
  let waiting : List Task := [.hold [h] []]
  let classed : Effect := .classed host.config.classes.requiredIndicator
  obtain ⟨g, hg, hfirst⟩ := exists_performs_effect (e := started) hhost .required (by simp)
    call.args.field call.switch call.skip
  obtain ⟨f, hf, hsecond⟩ := exists_performs_effect hg classed (by simp [classed])
    call.args.field call.switch call.skip
  have haction : e.action? h call.name = some (.builtin (.required call.source)) := by
    rw [action?, hhost, Option.bind_some, hactions, call.get?_name]
  refine ⟨f, ?_, (applies_iff hhost).2 ⟨_, .cons (.plain (.known haction ?_)) .nil, rfl⟩⟩
  · rw [hf]
    dsimp only
    rw [Form.pick_apply (by simp) (by simp)]
    rfl
  · have hperform : (started.schedule waiting).perform
        (.perform h (.builtin (.required call.source)) call.args call.skip) =
        (started.schedule waiting).schedule
          ([.effect h call.args.field .required call.switch call.skip false] ++
            ([.effect h call.args.field classed call.switch call.skip false] ++
              [.hold [h] []])) := by
      have hhost' : (started.schedule waiting).host? h = some host := hhost
      simp [perform, hhost', actionTasks, BuiltinAction.plan, hclass, classed,
        RequiredCall.switch]
    have hhold : f.schedule waiting |>.Performs [.hold [h] []] (f.schedule waiting) := by
      have hperform : (f.schedule waiting).perform (.hold [h] []) =
          (f.schedule waiting).schedule [] := rfl
      rw [performs_singleton hperform rfl, performs_nil]
    rw [Completes, performs_singleton hperform rfl, performs_append]
    refine ⟨g.schedule waiting, ?_, performs_append.2 ⟨f.schedule waiting, ?_, hhold⟩⟩
    · simpa only [schedule_schedule] using hfirst _
    · simpa only [schedule_schedule] using hsecond _

/-- Calls take the two marks of every field through the switches of those that address it. Ids stay,
so the calls that follow address the same fields as they would have before. -/
theorem exists_requires (hhost : e.host? h = some host)
    (hactions : ∀ call : RequiredCall,
      host.actions.get? call.name = Config.builtin.actions.get? call.name)
    (hclass : host.config.classes.requiredIndicator ≠ "") (calls : List RequiredCall) :
    ∃ e' form', Requires h e calls e' ∧ e'.host? h = some { host with form := form' } ∧
      ∀ k, form'.marks? host.config.classes.requiredIndicator k =
        (host.form.marks? host.config.classes.requiredIndicator k).map
          (RequiredCall.turns calls host.form k) := by
  induction calls generalizing e host with
  | nil => exact ⟨e, host.form, .nil, hhost, fun k => Option.map_id.symm ▸ rfl⟩
  | cons call calls ih =>
    obtain ⟨e₁, hhost₁, hfirst⟩ := exists_applies_required hhost hactions hclass call
    obtain ⟨e', form', hrest, hhost', hmarks⟩ := ih hhost₁ hactions hclass
    refine ⟨e', form', .cons hfirst hrest, hhost', fun k => ?_⟩
    dsimp only at hmarks
    rw [hmarks, Form.marks?_require _ _ (call.nodup_fields _), Option.map_map]
    have hfields : ∀ next : RequiredCall, next.fields (host.form.require
        host.config.classes.requiredIndicator (call.fields host.form) call.switch) =
        next.fields host.form := fun next => Form.pick_require _ _ _ _ _
    refine congrArg (Option.map · _) (funext fun m => ?_)
    simp only [Function.comp_apply, RequiredCall.turns, hfields]
    rfl

/-- Whatever marks the fields have, calls of the four actions come to their end, and a field agrees
with its class afterwards just if it did before, or if a call has set or unset it since. -/
theorem indicator_agrees_iff {e : Engine} {h : HostId} {host : Host} {c : String}
    (hhost : e.host? h = some host)
    (hactions : ∀ call : RequiredCall,
      host.actions.get? call.name = Config.builtin.actions.get? call.name)
    (hc : host.config.classes.requiredIndicator = c) (hne : c ≠ "") (calls : List RequiredCall) :
    ∃ e' host', Requires h e calls e' ∧ e'.host? h = some host' ∧
      ∀ k f, host.form.field? k = some f → ∃ f', host'.form.field? k = some f' ∧
        f'.marks c = RequiredCall.turns calls host.form k (f.marks c) ∧
        (f'.required = f'.hasClass c ↔ f.required = f.hasClass c ∨
          ∃ call ∈ calls, k ∈ call.fields host.form ∧ call.switch ≠ .toggle) := by
  subst hc
  obtain ⟨e', form', hcalls, hhost', hmarks⟩ := exists_requires hhost hactions hne calls
  refine ⟨e', _, hcalls, hhost', fun k f hf => ?_⟩
  have hk := hmarks k
  rw [Form.marks?, Form.marks?, hf, Option.map_some, Option.map_some] at hk
  obtain ⟨f', hf', hmarks'⟩ := Option.map_eq_some_iff.1 hk
  have hagrees := RequiredCall.turns_agrees_iff calls host.form k
    (f.marks host.config.classes.requiredIndicator)
  rw [← hmarks'] at hagrees
  exact ⟨f', hf', hmarks', hagrees⟩

/-- A host for an order with a mail address that is not required and carries the class of required
fields. -/
def mailHost : Host := .new .builtin
  { id := "order"
    fields := [{ id := "mail", kind := .text, value := "a@b", classes := ["required"] }] } false

/-- Toggling makes the address required and takes its class away. It has both once it is set to
required. -/
theorem indicator_agrees_mail : ∃ e' host' f', Requires 0 { hosts := [mailHost] }
      [⟨.fixed .toggle, [.text "mail"], false⟩, ⟨.argument, [.text "<form>", .text "set"], false⟩] e' ∧
    e'.host? 0 = some host' ∧ host'.form.field? 0 = some f' ∧ f'.marks "required" = (true, true) := by
  obtain ⟨e', host', hcalls, hhost, hfields⟩ := indicator_agrees_iff (e := { hosts := [mailHost] })
    (h := 0) rfl (fun _ => rfl) rfl (by decide)
    [⟨.fixed .toggle, [.text "mail"], false⟩, ⟨.argument, [.text "<form>", .text "set"], false⟩]
  obtain ⟨f', hf', hmarks, -⟩ := hfields 0 _ rfl
  exact ⟨e', host', f', hcalls, hhost, hf', hmarks.trans (by decide +kernel)⟩

/-- Toggled once, the address is required and does not carry the class. -/
theorem toggled_without_class :
    ((run 20 { hosts := [mailHost], agenda := [.dispatch 0 [.named "toggleRequired"] [.text "mail"]
      false false {} false] }).host? 0).map (fun host => host.form.fields.map fun f =>
        (f.required, f.hasClass mailHost.config.classes.requiredIndicator)) =
    some [(true, false)] := by
  decide +kernel

end Engine

end FormRules
