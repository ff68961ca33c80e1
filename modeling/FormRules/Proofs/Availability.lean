import FormRules.Proofs.Repetition

/-!
# Showing options

An option is available if it is neither hidden nor disabled. Four actions decide over it: `enable`
and `disable` set whether it is disabled, and `hideOption` and `showOption` are to set both. But what
is hidden and not disabled, or disabled and not hidden, counts as shown already, so `showOption`
leaves it as it is. Only `hideOption` takes it as shown and withdraws it.

What the four actions make of the two flags of a field is a state machine with four states
(`Toggle.turn`), and a form goes through it field by field (`Form.flags_toggles`).
-/

namespace FormRules

/-- Whether the field is hidden, and whether it is disabled. -/
def FieldState.flags (f : FieldState) : Bool × Bool := (f.hidden, f.disabled)

/-- The actions that decide whether a field is available. -/
inductive Toggle
  | enable
  | disable
  | showOption
  | hideOption
deriving DecidableEq, Repr

namespace Toggle

/-- The name of the action. -/
def name : Toggle → String
  | enable => "enable"
  | disable => "disable"
  | showOption => "showOption"
  | hideOption => "hideOption"

/-- The effect of the action and how it is applied. -/
def effect : Toggle → Effect × Switch
  | enable => (.disabled, .unset)
  | disable => (.disabled, .set)
  | showOption => (.optionVisible, .set)
  | hideOption => (.optionVisible, .unset)

/-- This is what the built-in action of the name does. -/
example (t : Toggle) : BuiltinAction.all.lookup t.name =
    some (.effect t.effect.1 (.fixed t.effect.2)) := by
  cases t <;> rfl

/-- What the action makes of the flags of a field. -/
def turn : Toggle → Bool × Bool → Bool × Bool
  | enable, (hidden, _) => (hidden, false)
  | disable, (hidden, _) => (hidden, true)
  | hideOption, _ => (true, true)
  | showOption, (hidden, disabled) =>
    if hidden && disabled then (false, false) else (hidden, disabled)

theorem turn_turn (t : Toggle) (flags : Bool × Bool) : t.turn (t.turn flags) = t.turn flags := by
  obtain ⟨hidden, disabled⟩ := flags
  cases t <;> cases hidden <;> cases disabled <;> rfl

/-- A field that is switched has the flags that the action gives it, and one that is as wanted has
them already. -/
theorem turn_flags (t : Toggle) (f : FieldState) :
    (if t.effect.1.holds f = t.effect.2.next (t.effect.1.holds f) then f
      else t.effect.1.put (t.effect.2.next (t.effect.1.holds f)) f).flags = t.turn f.flags := by
  cases t <;> cases hh : f.hidden <;> cases hd : f.disabled <;>
    simp [effect, turn, FieldState.flags, Effect.holds, Effect.put, Switch.next, hh, hd]

end Toggle

namespace Form

variable {form : Form} {h k : Handle} {f : FieldState}

/-- The flags of the field behind a handle. -/
def flags? (form : Form) (k : Handle) : Option (Bool × Bool) :=
  (form.field? k).map FieldState.flags

theorem flags?_refresh (form : Form) (k : Handle) : form.refresh.flags? k = form.flags? k := by
  rw [flags?, flags?, field?_refresh, Option.map_map]
  rfl

/-- Moving a selection hides and disables nothing. -/
theorem flags?_repairOne (form : Form) (h k : Handle) :
    (form.repairOne h).flags? k = form.flags? k := by
  by_cases hselected : ∃ f, form.field? h = some f ∧ f.kind = .option ∧ f.hidden ∧ f.disabled ∧
    f.checked
  · obtain ⟨f, hf, hselected⟩ := hselected
    rw [flags?, flags?, field?_repairOne_selected hf hselected, Option.map_map]
    rfl
  · rw [repairOne_of_not_selected hselected]

theorem flags?_applyOne (form : Form) (t : Toggle) (h k : Handle) :
    (form.applyOne t.effect.1 t.effect.2 h).1.flags? k =
      (form.flags? k).map fun flags => if h = k then t.turn flags else flags := by
  unfold applyOne
  cases hf : form.field? h with
  | none =>
    by_cases hk : h = k
    · rw [← hk, flags?, hf]
      rfl
    · simp [hk]
  | some f =>
    have hturn := t.turn_flags f
    have hswitch : (t.effect.1 = .checked) = False := by cases t <;> simp [Toggle.effect]
    dsimp only
    split
    · next hsame =>
      rw [if_pos hsame] at hturn
      by_cases hk : h = k
      · subst hk
        simp [flags?, hf, ← hturn]
      · simp [hk]
    · next hother =>
      rw [if_neg hother] at hturn
      simp only [switchField, hswitch, false_and, if_false, flags?, field?_modify]
      by_cases hk : h = k
      · subst hk
        simp [hf, hturn]
      · simp [hk, Function.comp_def]

/-- An action takes the flags of each field that it addresses one step on. -/
theorem flags?_apply (form : Form) (t : Toggle) (hs : List Handle) (k : Handle) :
    (form.apply hs t.effect.1 t.effect.2).1.flags? k =
      (form.flags? k).map fun flags => if k ∈ hs then t.turn flags else flags := by
  have heach : ∀ (hs : List Handle) (form : Form),
      (hs.foldl (fun form h => (form.applyOne t.effect.1 t.effect.2 h).1) form).flags? k =
        (form.flags? k).map fun flags => if k ∈ hs then t.turn flags else flags := by
    intro hs
    induction hs with
    | nil => simp
    | cons h hs ih =>
      intro form
      rw [List.foldl_cons, ih, flags?_applyOne, Option.map_map]
      refine congrArg (Option.map · _) (funext fun flags => ?_)
      rcases eq_or_ne k h with rfl | hk
      · simp [t.turn_turn]
      · simp [hk, hk.symm]
  have hrepair : ∀ form : Form, (form.repairSelection hs).flags? k = form.flags? k := fun form =>
    List.foldlRecOn (motive := fun form' => form'.flags? k = form.flags? k) hs _ rfl
      fun form' hform h _ => (flags?_repairOne form' h k).trans hform
  unfold apply
  dsimp only
  rw [flags?_refresh]
  split
  · rw [hrepair, fst_applyEach, heach]
  · rw [fst_applyEach, heach]

/-- The form after one action after the other, each on its fields. -/
def toggles (form : Form) (past : List (Toggle × List Handle)) : Form :=
  form.calls (past.map fun p => .apply p.2 p.1.effect.1 p.1.effect.2)

/-- The flags of a field go through the actions that address it. -/
theorem flags?_toggles (form : Form) (past : List (Toggle × List Handle)) (k : Handle) :
    (form.toggles past).flags? k = (form.flags? k).map
      (past.foldl fun flags p => if k ∈ p.2 then p.1.turn flags else flags) := by
  induction past generalizing form with
  | nil => simp [toggles, calls]
  | cons p past ih =>
    have hrest : form.toggles (p :: past) =
        (form.apply p.2 p.1.effect.1 p.1.effect.2).1.toggles past := rfl
    rw [hrest, ih, flags?_apply, Option.map_map]
    rfl

/-- Whatever was enabled, disabled, shown and hidden before: showing a field that is there makes it
neither hidden nor disabled if it was both or neither, and leaves it hidden or disabled if it was one
of the two. Which of these it was is read off the actions that addressed it. -/
theorem available_iff {form : Form} (past : List (Toggle × List Handle)) {hs : List Handle}
    {k : Handle} {f : FieldState} (hk : k ∈ hs) (hf : form.field? k = some f) :
    ∃ before after, (form.toggles past).field? k = some before ∧
      ((form.toggles past).apply hs .optionVisible .set).1.field? k = some after ∧
      before.flags = past.foldl (fun flags p => if k ∈ p.2 then p.1.turn flags else flags) f.flags ∧
      (after.hidden = false ∧ after.disabled = false ↔ before.hidden = before.disabled) ∧
      (before.hidden ≠ before.disabled → after.flags = before.flags) := by
  have hbefore := form.flags?_toggles past k
  have hafter := (form.toggles past).flags?_apply .showOption hs k
  rw [hbefore] at hafter
  simp only [flags?, hf, Option.map_some] at hbefore hafter
  obtain ⟨before, hb, hbflags⟩ := Option.map_eq_some_iff.1 hbefore
  obtain ⟨after, ha, haflags⟩ := Option.map_eq_some_iff.1 hafter
  refine ⟨before, after, hb, ha, hbflags, ?_⟩
  rw [← hbflags, if_pos hk] at haflags
  have hturn : (after.hidden, after.disabled) =
      if before.hidden && before.disabled then (false, false)
      else (before.hidden, before.disabled) := haflags
  split at hturn
  · next hboth =>
    rw [Bool.and_eq_true] at hboth
    obtain ⟨hhidden, hdisabled⟩ := Prod.mk.inj hturn
    refine ⟨by simp [hhidden, hdisabled, hboth], fun hne => absurd ?_ hne⟩
    rw [hboth.1, hboth.2]
  · next hboth =>
    obtain ⟨hhidden, hdisabled⟩ := Prod.mk.inj hturn
    refine ⟨?_, fun _ => hturn⟩
    rw [hhidden, hdisabled]
    cases hh : before.hidden <;> cases hd : before.disabled <;> simp [hh, hd] at hboth ⊢

/-- A list of two sizes. -/
def twoSizes : Form := (Form.empty "order").addGroup .option "size" ["s", "m"] (some "m")

/-- A size that has been hidden as an option, and so is hidden and disabled, is available once it is
shown. -/
theorem available_iff_twoSizes : ∃ after,
    ((twoSizes.toggles [(.hideOption, [0, 1]), (.disable, [1])]).apply [0] .optionVisible
      .set).1.field? 0 = some after ∧ after.hidden = false ∧ after.disabled = false := by
  have hfield : twoSizes.field? 0 = some { id := "size", kind := .option, value := "s" } := by decide
  obtain ⟨before, after, -, hafter, hflags, hiff, -⟩ :=
    available_iff [(.hideOption, [0, 1]), (.disable, [1])] (List.mem_singleton_self 0) hfield
  have hboth : (before.hidden, before.disabled) = (true, true) := hflags
  obtain ⟨hhidden, hdisabled⟩ := Prod.mk.inj hboth
  exact ⟨after, hafter, hiff.2 (hhidden.trans hdisabled.symm)⟩

/-- A size that is hidden and then enabled is still hidden once it is shown, and one that is disabled
is still disabled. -/
theorem shown_not_available :
    (((twoSizes.toggles [(.hideOption, [0]), (.enable, [0])]).apply [0] .optionVisible
      .set).1.field? 0).map FieldState.flags = some (true, false) ∧
    (((twoSizes.toggles [(.disable, [0])]).apply [0] .optionVisible
      .set).1.field? 0).map FieldState.flags = some (false, true) := by
  decide

end Form

end FormRules
