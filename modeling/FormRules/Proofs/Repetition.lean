import FormRules.Proofs.Hiding

/-!
# Repeated calls

An effect that sets or unsets, and a write, have nothing left to do when they are repeated. Most
fields are brought to the wanted state one by one and stay there. But checking a radio button
unchecks the others of its group, so a call that checks several buttons of a group undoes some of
its own work, and does it again when it is repeated.

What such a call wants of its fields is an `Aim`, and `Form.meet` is what it does for one field. Two
fields of a call need not commute. But meeting an aim at one field, then at another, and then at the
first again is no more than meeting it at the second and then at the first (`Form.meet_absorb`), and
operations of which this holds can be repeated as a list (`foldl_subset`).

What a call leaves alone is said by `Form.Spares`: what holds of each of its steps holds of the call.
-/

namespace FormRules

/-! ## Operations that absorb each other -/

section Absorb

variable {α β : Type} {op : β → α → β}

/-- Where an operation on `a` is absorbed by the next one, it is absorbed by a list that has `a`. -/
theorem foldl_mem (hself : ∀ s a, op (op s a) a = op s a)
    (habsorb : ∀ s a b, op (op (op s a) b) a = op (op s b) a) {a : α} {l : List α} (ha : a ∈ l)
    (s : β) : l.foldl op (op s a) = l.foldl op s := by
  induction l generalizing s with
  | nil => simp at ha
  | cons b l ih =>
    rw [List.foldl_cons, List.foldl_cons]
    rcases List.mem_cons.1 ha with rfl | ha
    · rw [hself]
    · calc l.foldl op (op (op s a) b)
          = l.foldl op (op (op (op s a) b) a) := (ih ha _).symm
        _ = l.foldl op (op (op s b) a) := by rw [habsorb]
        _ = l.foldl op (op s b) := ih ha _

/-- Where operations absorb each other, a list of them absorbs one that has no others. -/
theorem foldl_subset (hself : ∀ s a, op (op s a) a = op s a)
    (habsorb : ∀ s a b, op (op (op s a) b) a = op (op s b) a) {l l' : List α} (hl : l ⊆ l')
    (s : β) : l'.foldl op (l.foldl op s) = l'.foldl op s := by
  induction l generalizing s with
  | nil => rfl
  | cons a l ih =>
    obtain ⟨ha, hl⟩ := List.cons_subset.1 hl
    rw [List.foldl_cons, ih hl, foldl_mem hself habsorb ha]

end Absorb

/-! ## Aims -/

namespace FieldState

/-- A field that is not checked. -/
def unchecked (f : FieldState) : FieldState := { f with checked := false }

/-- Two radio buttons of one group. -/
def rivals (f g : FieldState) : Bool := f.kind == .radio && g.kind == .radio && f.id == g.id

/-- Rivals are rivals of each other. -/
theorem rivals_comm (f g : FieldState) : f.rivals g = g.rivals f := by
  simp only [rivals, Bool.beq_comm (a := f.id), Bool.and_comm (f.kind == .radio)]

/-- Two buttons of one group have the same rivals. -/
theorem rivals_congr {f g : FieldState} (h : f.rivals g = true) (x : FieldState) :
    f.rivals x = g.rivals x := by
  simp only [rivals, Bool.and_eq_true, beq_iff_eq] at h
  simp only [rivals, h]

@[simp] theorem unchecked_unchecked (f : FieldState) : f.unchecked.unchecked = f.unchecked := rfl

@[simp] theorem unchecked_rivals (f g : FieldState) : f.unchecked.rivals g = f.rivals g := rfl

end FieldState

/-- What a call wants of the fields that it addresses: what becomes of each, and which of them it
checks. A field that is where it is wanted stays there, and unchecking a field changes nothing but
what the call may check again. -/
structure Aim where
  reach : FieldState → FieldState
  checks : FieldState → Bool
  id_reach : ∀ f, (reach f).id = f.id
  kind_reach : ∀ f, (reach f).kind = f.kind
  reach_reach : ∀ f, reach (reach f) = reach f
  checks_reach : ∀ f, checks (reach f) = checks f
  checked_reach : ∀ f, checks f = true → (reach f).checked = true
  checks_unchecked : ∀ f, checks f.unchecked = checks f
  reach_unchecked : ∀ f, reach f.unchecked = if checks f then reach f else (reach f).unchecked
  checks_marked : ∀ f, checks f.marked = checks f
  reach_marked : ∀ f, reach f.marked = (reach f).marked

namespace Aim

attribute [simp] id_reach kind_reach reach_reach checks_reach checks_unchecked checks_marked

/-- Whether the call checks a radio button that is not checked yet. -/
def picks (a : Aim) (f : FieldState) : Bool := f.kind == .radio && a.checks f && !f.checked

/-- A field that is brought where it is wanted keeps its group. -/
@[simp] theorem rivals_reach (a : Aim) (f g : FieldState) : f.rivals (a.reach g) = f.rivals g := by
  simp only [FieldState.rivals, id_reach, kind_reach]

/-- A button that is where it is wanted is not checked once more. -/
@[simp] theorem picks_reach (a : Aim) (f : FieldState) : a.picks (a.reach f) = false := by
  cases h : a.checks f <;> simp [picks, h, a.checked_reach]

theorem checks_of_picks (a : Aim) {f : FieldState} (h : a.picks f = true) : a.checks f = true := by
  simp only [picks, Bool.and_eq_true] at h
  exact h.1.2

/-- A button that has been unchecked is checked again if the call wants that. -/
theorem picks_unchecked (a : Aim) {f : FieldState} (hkind : f.kind = .radio) :
    a.picks f.unchecked = a.checks f := by
  simp [picks, FieldState.unchecked, hkind, ← a.checks_unchecked f]

/-- Where a field was brought before it was unchecked makes no difference. -/
theorem reach_unchecked_reach (a : Aim) (f : FieldState) :
    a.reach (a.reach f).unchecked = a.reach f.unchecked := by
  simp [reach_unchecked]

/-- The field as it is wanted by setting or unsetting an effect. -/
def switched (e : Effect) (on : Bool) (f : FieldState) : FieldState :=
  if e.holds f = on then f else e.put on f

section Switched

variable (e : Effect) (on : Bool) (f : FieldState)

theorem id_switched : (switched e on f).id = f.id := by
  unfold switched
  split <;> simp [Form.Effect.id_put]

theorem kind_switched : (switched e on f).kind = f.kind := by
  unfold switched
  split <;> simp [Effect.kind_put]

/-- An effect that is on stays on, and one that is off stays off. -/
theorem switched_switched : switched e on (switched e on f) = switched e on f := by
  by_cases hkind : f.kind.isCheckable <;> cases e <;> cases on <;>
    grind [switched, Effect.holds, Effect.put, FieldState.hasClass]

theorem isCheck_switched : e.isCheck (switched e on f) = e.isCheck f := by
  simp only [Effect.isCheck, kind_switched]

/-- The effect that checks a field leaves it checked. -/
theorem checked_switched (h : (e.isCheck f && on) = true) : (switched e on f).checked = true := by
  cases e <;> grind [switched, Effect.isCheck, Effect.holds, Effect.put]

/-- Unchecking a field matters to its check only, which the effect sets or leaves off. -/
theorem switched_unchecked : switched e on f.unchecked =
    if (e.isCheck f && on) = true then switched e on f else (switched e on f).unchecked := by
  obtain ⟨id, kind, value, checked⟩ := f
  cases kind <;> cases checked <;> cases e <;> cases on <;>
    grind [switched, Effect.isCheck, Effect.holds, Effect.put, FieldState.unchecked,
      FieldState.hasClass, FieldKind.isCheckable]

/-- Whether a field is valid has no part in what an effect does to it. -/
theorem switched_marked : switched e on f.marked = (switched e on f).marked := by
  cases e <;> grind [switched, Effect.holds, Effect.put, FieldState.marked, FieldState.hasClass]

end Switched

/-- To set or unset an effect. -/
def ofEffect (e : Effect) (on : Bool) : Aim where
  reach := switched e on
  checks f := e.isCheck f && on
  id_reach := id_switched e on
  kind_reach := kind_switched e on
  reach_reach := switched_switched e on
  checks_reach f := congrArg (· && on) (isCheck_switched e on f)
  checked_reach := checked_switched e on
  checks_unchecked _ := rfl
  reach_unchecked := switched_unchecked e on
  checks_marked _ := rfl
  reach_marked := switched_marked e on

/-- Effects keep values. -/
theorem value_ofEffect (e : Effect) (on : Bool) (f : FieldState) :
    ((ofEffect e on).reach f).value = f.value := by
  simp only [ofEffect, switched]
  split
  · rfl
  · cases e with
    | checked =>
      simp only [Effect.put]
      split <;> rfl
    | _ => rfl

/-- The check that a write sets or unsets. -/
def wish? (v : Value) (f : FieldState) : Option Bool :=
  if f.kind.isCheckable then (Form.writeSwitch? f v).map (·.next false) else none

/-- What a write wants of a check depends on the kind and the value of the field. -/
theorem wish?_congr {v : Value} {f g : FieldState} (hkind : g.kind = f.kind)
    (hvalue : g.value = f.value) : wish? v g = wish? v f := by
  cases v <;> simp only [wish?, Form.writeSwitch?, hkind, hvalue]

/-- Only boxes, buttons and options have a check to be set. -/
theorem isCheckable_of_wish? {v : Value} {f : FieldState} {on : Bool} (h : wish? v f = some on) :
    f.kind.isCheckable = true := by
  unfold wish? at h
  split at h
  · assumption
  · simp at h

/-- Gives a text the value. -/
def fill (v : Value) (f : FieldState) : FieldState :=
  if f.kind.isCheckable then f else { f with value := v.asText }

/-- What a write makes of a field: a box, button or option is switched or stays, and a text gets the
value. -/
def written (v : Value) (f : FieldState) : FieldState :=
  match wish? v f with
  | some on => (ofEffect .checked on).reach f
  | none => fill v f

theorem written_of_some {v : Value} {f : FieldState} {on : Bool} (h : wish? v f = some on) :
    written v f = (ofEffect .checked on).reach f := by
  rw [written, h]

theorem written_of_none {v : Value} {f : FieldState} (h : wish? v f = none) :
    written v f = fill v f := by
  rw [written, h]

section Written

variable (v : Value) (f : FieldState)

theorem id_written : (written v f).id = f.id := by
  cases hw : wish? v f with
  | some on => rw [written_of_some hw, id_reach]
  | none =>
    rw [written_of_none hw, fill]
    split <;> rfl

theorem kind_written : (written v f).kind = f.kind := by
  cases hw : wish? v f with
  | some on => rw [written_of_some hw, kind_reach]
  | none =>
    rw [written_of_none hw, fill]
    split <;> rfl

/-- A write wants the same of a field that it has been written to. -/
theorem wish?_written : wish? v (written v f) = wish? v f := by
  cases hw : wish? v f with
  | some on => rw [written_of_some hw, wish?_congr (kind_reach _ f) (value_ofEffect _ _ f), hw]
  | none =>
    rw [written_of_none hw, fill]
    split
    · exact hw
    · next hcheck => exact if_neg hcheck

/-- A value that has been written is written already. -/
theorem written_written : written v (written v f) = written v f := by
  have hsame := wish?_written v f
  cases hw : wish? v f with
  | some on => rw [written_of_some (hsame.trans hw), written_of_some hw, reach_reach]
  | none =>
    rw [written_of_none (hsame.trans hw), written_of_none hw]
    grind [fill]

/-- A write that checks a field leaves it checked. -/
theorem checked_written (h : (wish? v f == some true) = true) : (written v f).checked = true := by
  have hw : wish? v f = some true := beq_iff_eq.1 h
  rw [written_of_some hw]
  refine checked_reach _ f ?_
  simp [ofEffect, Effect.isCheck, isCheckable_of_wish? hw]

/-- Unchecking a field matters to its check only, which the write sets or leaves off. -/
theorem written_unchecked : written v f.unchecked =
    if (wish? v f == some true) = true then written v f else (written v f).unchecked := by
  have hsame : wish? v f.unchecked = wish? v f := wish?_congr rfl rfl
  cases hw : wish? v f with
  | some on =>
    rw [written_of_some (hsame.trans hw), written_of_some hw, reach_unchecked]
    simp [ofEffect, Effect.isCheck, isCheckable_of_wish? hw]
  | none =>
    rw [written_of_none (hsame.trans hw), written_of_none hw]
    grind [fill, FieldState.unchecked]

theorem written_marked : written v f.marked = (written v f).marked := by
  have hsame : wish? v f.marked = wish? v f := wish?_congr rfl rfl
  cases hw : wish? v f with
  | some on => rw [written_of_some (hsame.trans hw), written_of_some hw, reach_marked]
  | none =>
    rw [written_of_none (hsame.trans hw), written_of_none hw]
    grind [fill, FieldState.marked]

end Written

/-- To write a value. -/
def ofValue (v : Value) : Aim where
  reach := written v
  checks f := wish? v f == some true
  id_reach := id_written v
  kind_reach := kind_written v
  reach_reach := written_written v
  checks_reach f := congrArg (· == some true) (wish?_written v f)
  checked_reach := checked_written v
  checks_unchecked _ := congrArg (· == some true) (wish?_congr rfl rfl)
  reach_unchecked := written_unchecked v
  checks_marked _ := congrArg (· == some true) (wish?_congr rfl rfl)
  reach_marked := written_marked v

end Aim

namespace Effect

/-- The check has no part in what else an effect does. -/
theorem bare_put (e : Effect) (on : Bool) (f : FieldState) :
    (e.put on f).bare = (e.put on f.bare).bare := by
  cases e with
  | checked =>
    by_cases hkind : f.kind.isCheckable <;> simp [put, FieldState.bare, hkind]
  | _ => rfl

/-- Switching a property off undoes how it was switched. -/
theorem put_false_put (e : Effect) (on : Bool) (f : FieldState) :
    e.put false (e.put on f) = e.put false f := by
  cases e with
  | checked => by_cases hkind : f.kind.isCheckable <;> simp [put, hkind]
  | classed name => cases on <;> simp [put]
  | _ => rfl

end Effect

namespace Form

variable {form form' : Form} {a : Aim} {h k : Handle} {f g : FieldState}

/-! ## Meeting an aim -/

/-- Brings one field where it is wanted. -/
def meet (a : Aim) (form : Form) (h : Handle) : Form :=
  match form.field? h with
  | none => form
  | some f =>
    let form := form.modify h a.reach
    if a.picks f then form.uncheckOthers h f.id else form

theorem meet_of_none (hf : form.field? h = none) : form.meet a h = form := by
  simp only [meet, hf]

theorem id_meet : (form.meet a h).id = form.id := by
  unfold meet
  split
  · rfl
  · dsimp only
    split <;> rfl

/-- What meeting an aim at `h` does to the field `k`: it is brought where it is wanted if it is the
same, and unchecked if it is a rival of a button that is checked. -/
theorem field?_meet (hf : form.field? h = some f) (k : Handle) :
    (form.meet a h).field? k = (form.field? k).map fun g =>
      if h = k then a.reach g else if a.picks f && f.rivals g then g.unchecked else g := by
  simp only [meet, hf]
  by_cases hpicks : a.picks f = true
  · have hradio : f.kind = .radio := by
      simp only [Aim.picks, Bool.and_eq_true, beq_iff_eq] at hpicks
      exact hpicks.1.1
    rw [if_pos hpicks, field?_uncheckOthers, field?_modify, Option.map_map]
    refine congrArg (Option.map · _) (funext fun g => ?_)
    by_cases hk : h = k
    · simp [hk]
    · simp only [Function.comp_apply, if_neg hk]
      grind [FieldState.rivals, FieldState.unchecked]
  · rw [if_neg hpicks, field?_modify]
    simp [hpicks]

/-- A form is its id and its fields. -/
theorem ext_field? (hid : form.id = form'.id) (hfield : ∀ k, form.field? k = form'.field? k) :
    form = form' := by
  obtain ⟨id, fields⟩ := form
  obtain ⟨id', fields'⟩ := form'
  obtain rfl : id = id' := hid
  obtain rfl : fields = fields' := List.ext_getElem? hfield
  rfl

/-- A field that is where it is wanted stays there. -/
theorem meet_self (a : Aim) (form : Form) (h : Handle) :
    (form.meet a h).meet a h = form.meet a h := by
  cases hf : form.field? h with
  | none => rw [meet_of_none hf, meet_of_none hf]
  | some f =>
    have hfirst : (form.meet a h).field? h = some (a.reach f) := by simp [field?_meet hf, hf]
    refine ext_field? id_meet fun k => ?_
    rw [field?_meet hfirst, field?_meet hf, Option.map_map]
    refine congrArg (Option.map · _) (funext fun g => ?_)
    by_cases hk : h = k <;> simp [hk]

/-- Fields that are no rivals can be met in either order. -/
theorem meet_comm (hhk : h ≠ k) (hf : form.field? h = some f) (hg : form.field? k = some g)
    (hrivals : f.rivals g = false) :
    (form.meet a h).meet a k = (form.meet a k).meet a h := by
  have hrivals' : g.rivals f = false := g.rivals_comm f ▸ hrivals
  have hk₁ : (form.meet a h).field? k = some g := by simp [field?_meet hf, hg, hhk, hrivals]
  have hh₁ : (form.meet a k).field? h = some f := by
    simp [field?_meet hg, hf, hhk.symm, hrivals']
  refine ext_field? (by simp only [id_meet]) fun j => ?_
  rw [field?_meet hk₁, field?_meet hf, field?_meet hh₁, field?_meet hg, Option.map_map,
    Option.map_map]
  cases hj : form.field? j with
  | none => rfl
  | some x =>
    simp only [Option.map_some, Function.comp_apply]
    by_cases hjh : h = j
    · subst hjh
      obtain rfl := Option.some.inj (hf.symm.trans hj)
      simp [hhk.symm, hrivals']
    · by_cases hjk : k = j
      · subst hjk
        obtain rfl := Option.some.inj (hg.symm.trans hj)
        simp [hhk, hrivals]
      · by_cases hp : (a.picks f && f.rivals x) = true <;>
          by_cases hq : (a.picks g && g.rivals x) = true <;> simp [hjh, hjk, hp, hq]

theorem field?_meet_same (hf : form.field? h = some f) :
    (form.meet a h).field? h = some (a.reach f) := by
  simp [field?_meet hf, hf]

/-- What becomes of a rival of the field that is met. -/
theorem exists_rival (hhk : h ≠ k) (hf : form.field? h = some f) (hg : form.field? k = some g)
    (hrivals : f.rivals g = true) : ∃ g', (form.meet a h).field? k = some g' ∧
      a.picks g' = (a.picks g || (a.picks f && a.checks g)) ∧
      a.reach g' = (if a.picks f then a.reach g.unchecked else a.reach g) ∧
      ∀ x, g'.rivals x = f.rivals x := by
  have hkind : g.kind = .radio := by
    simp only [FieldState.rivals, Bool.and_eq_true, beq_iff_eq] at hrivals
    exact hrivals.1.2
  have hsame : ∀ x, g.rivals x = f.rivals x := fun x => (FieldState.rivals_congr hrivals x).symm
  refine ⟨if a.picks f then g.unchecked else g, ?_, ?_⟩
  · simp [field?_meet hf, hg, hhk, hrivals]
  · cases hpicks : a.picks f with
    | false => simp [hsame]
    | true => simpa [hsame, a.picks_unchecked hkind] using a.checks_of_picks

/-- Of two rivals, the one that is met last decides: if both are to be checked and one of them is not
yet, it is the one that is checked in the end, whatever the other was in between. -/
theorem meet_absorb_of_rivals (hhk : h ≠ k) (hf : form.field? h = some f)
    (hg : form.field? k = some g) (hrivals : f.rivals g = true) :
    ((form.meet a h).meet a k).meet a h = (form.meet a k).meet a h := by
  obtain ⟨g₁, hk₁, hpicks₁, hreach₁, hrivals₁⟩ := exists_rival (a := a) hhk hf hg hrivals
  obtain ⟨f₁, hh₁, hpicks, hreach, hrivals'⟩ :=
    exists_rival (a := a) hhk.symm hg hf (g.rivals_comm f ▸ hrivals)
  have hself : f.rivals f = true := by
    simp only [FieldState.rivals, Bool.and_eq_true, beq_iff_eq] at hrivals ⊢
    exact ⟨⟨hrivals.1.1, hrivals.1.1⟩, trivial⟩
  obtain ⟨f₂, hh₂, hpicks₂, hreach₂, hrivals₂⟩ :=
    exists_rival (a := a) hhk.symm hk₁ (field?_meet_same hf) (by simpa [hrivals₁] using hself)
  have hsame : ∀ x, g.rivals x = f.rivals x := fun x => (FieldState.rivals_congr hrivals x).symm
  simp only [Aim.picks_reach, Aim.checks_reach, Bool.false_or] at hpicks₂
  simp only [Aim.reach_unchecked_reach, Aim.reach_reach] at hreach₂
  have hf' : a.checks f = false → a.picks f = false := by simp +contextual [Aim.picks]
  have hg' : a.checks g = false → a.picks g = false := by simp +contextual [Aim.picks]
  have hfield : ∀ x, a.reach x.unchecked = if a.checks x then a.reach x else (a.reach x).unchecked :=
    a.reach_unchecked
  refine ext_field? (by simp only [id_meet]) fun j => ?_
  by_cases hjh : h = j
  · subst hjh
    rw [field?_meet_same hh₂, field?_meet_same hh₁, hreach₂, hreach, hpicks₁]
    cases hcf : a.checks f <;> simp [hfield, hcf, hf']
  rw [field?_meet hh₂, field?_meet hh₁]
  by_cases hjk : k = j
  · subst hjk
    rw [field?_meet_same hk₁, field?_meet_same hg, hreach₁, hpicks₂, hpicks₁, hpicks]
    cases hpf : a.picks f <;> cases hcf : a.checks f <;> cases hcg : a.checks g <;> simp_all
  · rw [field?_meet hk₁, field?_meet hf, field?_meet hg]
    cases hj : form.field? j with
    | none => rfl
    | some x =>
      simp only [Option.map_some, if_neg hjh, if_neg hjk, hrivals₁, hrivals₂, hrivals', hsame]
      cases hx : f.rivals x with
      | false => simp [hx]
      | true =>
        rw [hpicks₂, hpicks₁, hpicks]
        cases hpf : a.picks f <;> cases hpg : a.picks g <;> cases hcf : a.checks f <;>
          cases hcg : a.checks g <;> simp_all

/-- Meeting an aim at one field before another adds nothing where the one comes again. -/
theorem meet_absorb (a : Aim) (form : Form) (h k : Handle) :
    ((form.meet a h).meet a k).meet a h = (form.meet a k).meet a h := by
  by_cases hhk : h = k
  · subst hhk
    rw [meet_self, meet_self]
  cases hf : form.field? h with
  | none =>
    rw [meet_of_none hf]
  | some f =>
    cases hg : form.field? k with
    | none =>
      have hnone : (form.meet a h).field? k = none := by rw [field?_meet hf, hg, Option.map_none]
      rw [meet_of_none hg, meet_of_none hnone, meet_self]
    | some g =>
      by_cases hrivals : f.rivals g = true
      · exact meet_absorb_of_rivals hhk hf hg hrivals
      · rw [meet_comm hhk hf hg (Bool.not_eq_true _ ▸ hrivals), meet_self]

/-! ## Calls -/

/-- A form up to what is recomputed. -/
def marks (form : Form) : Form := { form with fields := form.fields.map FieldState.marked }

theorem field?_marks (form : Form) (k : Handle) :
    form.marks.field? k = (form.field? k).map FieldState.marked := by
  simp only [field?, marks, List.getElem?_map]

/-- Recomputing validity changes a form in nothing else. -/
theorem marks_refresh (form : Form) : form.refresh.marks = form.marks :=
  ext_field? rfl fun k => by
    rw [field?_marks, field?_marks, field?_refresh, Option.map_map]
    rfl

/-- Forms that differ in validity at most are the same once it is recomputed. -/
theorem refresh_eq_of_marks (h : form.marks = form'.marks) : form.refresh = form'.refresh :=
  refresh_eq_of_marked (congrArg (·.id) h) fun k => by rw [← field?_marks, ← field?_marks, h]

/-- What is recomputed has no part in meeting an aim. -/
theorem marks_meet (a : Aim) (form : Form) (h : Handle) :
    (form.meet a h).marks = form.marks.meet a h := by
  cases hf : form.field? h with
  | none =>
    have hnone : form.marks.field? h = none := by rw [field?_marks, hf, Option.map_none]
    rw [meet_of_none hf, meet_of_none hnone]
  | some f =>
    have hsome : form.marks.field? h = some f.marked := by rw [field?_marks, hf, Option.map_some]
    have hpicks : a.picks f.marked = a.picks f := by
      simp only [Aim.picks, a.checks_marked]
      rfl
    have hid : (form.meet a h).marks.id = (form.marks.meet a h).id := by
      rw [id_meet]
      exact id_meet
    refine ext_field? hid fun k => ?_
    rw [field?_marks, field?_meet hf, field?_meet hsome, field?_marks, Option.map_map,
      Option.map_map]
    refine congrArg (Option.map · _) (funext fun g => ?_)
    have hrivals : f.marked.rivals g.marked = f.rivals g := rfl
    simp only [Function.comp_apply, hpicks, hrivals, a.reach_marked]
    split
    · rfl
    · split <;> rfl

/-- An operation on one handle that meets an aim, up to what is recomputed. -/
def Meets (op : Form → Handle → Form × Bool) (a : Aim) : Prop :=
  ∀ form h, (op form h).1.marks = form.marks.meet a h

/-- A call does to the fields what meeting its aim does, one field after the other. -/
theorem Meets.applyEach {op : Form → Handle → Form × Bool} (hop : Meets op a) (form : Form)
    (hs : List Handle) : (applyEach op form hs).1.marks = hs.foldl (meet a) form.marks := by
  induction hs generalizing form with
  | nil => rfl
  | cons h hs ih => rw [Form.applyEach, ih, hop, List.foldl_cons]

/-- What meets an aim has met it the first time. -/
theorem Meets.repeat {op : Form → Handle → Form × Bool} (hop : Meets op a) (form : Form)
    (hs : List Handle) :
    (Form.applyEach op (Form.applyEach op form hs).1.refresh hs).1.refresh =
      (Form.applyEach op form hs).1.refresh := by
  refine refresh_eq_of_marks ?_
  rw [hop.applyEach, marks_refresh, hop.applyEach]
  exact foldl_subset (meet_self a) (meet_absorb a) (List.Subset.refl hs) _

theorem modify_congr (hf : form.field? h = some f) {u v : FieldState → FieldState}
    (huv : u f = v f) : form.modify h u = form.modify h v :=
  ext_field? rfl fun k => by
    rw [field?_modify, field?_modify]
    by_cases hk : h = k
    · subst hk
      simp [hf, huv]
    · simp [hk]

/-- A change that leaves the field as it is leaves the form as it is. -/
theorem modify_of_fixed (hf : form.field? h = some f) {u : FieldState → FieldState}
    (hu : u f = f) : form.modify h u = form :=
  ext_field? rfl fun k => by
    rw [field?_modify]
    by_cases hk : h = k
    · subst hk
      simp [hf, hu]
    · simp [hk]

/-- Only the field itself tells what is done for it. -/
theorem meet_congr {a' : Aim} (hf : form.field? h = some f) (hreach : a.reach f = a'.reach f)
    (hpicks : a.picks f = a'.picks f) : form.meet a h = form.meet a' h := by
  simp only [meet, hf, hpicks, modify_congr hf hreach]

/-- Where no button is checked, meeting an aim changes one field. -/
theorem meet_of_not_picks (hf : form.field? h = some f) (hpicks : a.picks f = false) :
    form.meet a h = form.modify h a.reach := by
  simp [meet, hf, hpicks]

/-- To set or unset an effect at one field is to meet its aim. -/
theorem applyOne_eq_meet (form : Form) (e : Effect) (on : Bool) (h : Handle) :
    (form.applyOne e (.ofBool on) h).1 = form.meet (.ofEffect e on) h := by
  have hnext : ∀ b, (Switch.ofBool on).next b = on := by
    cases on <;> exact fun _ => rfl
  unfold applyOne
  cases hf : form.field? h with
  | none => rw [meet_of_none hf]
  | some f =>
    dsimp only
    rw [hnext]
    split
    · next hholds =>
      have hpicks : (Aim.ofEffect e on).picks f = false := by
        simp only [Aim.picks, Aim.ofEffect]
        cases e <;> grind [Effect.isCheck, Effect.holds]
      have hfixed : (Aim.ofEffect e on).reach f = f := if_pos hholds
      rw [meet_of_not_picks hf hpicks, modify_of_fixed hf hfixed]
    · next hholds =>
      have hpicks : (Aim.ofEffect e on).picks f = true ↔ e = .checked ∧ on ∧ f.kind = .radio := by
        simp only [Aim.picks, Aim.ofEffect]
        cases e <;> grind [Effect.isCheck, Effect.holds, FieldKind.isCheckable]
      have hreach : (Aim.ofEffect e on).reach f = e.put on f := if_neg hholds
      simp only [switchField, meet, hf, hpicks, modify_congr hf hreach]

/-- An effect meets its aim. -/
theorem meets_applyOne (e : Effect) (on : Bool) :
    Meets (fun form h => form.applyOne e (.ofBool on) h) (.ofEffect e on) := fun form h => by
  rw [applyOne_eq_meet, marks_meet]

/-- A write meets its aim. -/
theorem meets_writeOne (v : Value) : Meets (writeOne v) (.ofValue v) := fun form h => by
  rw [← marks_meet]
  unfold writeOne
  cases hf : form.field? h with
  | none => rw [meet_of_none hf]
  | some f =>
    dsimp only
    split
    · next hcheck =>
      cases hw : writeSwitch? f v with
      | none =>
        have hwish : Aim.wish? v f = none := by simp [Aim.wish?, hcheck, hw]
        have hpicks : (Aim.ofValue v).picks f = false := by simp [Aim.picks, Aim.ofValue, hwish]
        have hfixed : (Aim.ofValue v).reach f = f := (Aim.written_of_none hwish).trans (if_pos hcheck)
        rw [meet_of_not_picks hf hpicks, modify_of_fixed hf hfixed]
      | some s =>
        obtain ⟨on, rfl⟩ := writeSwitch?_eq_some hw
        have hnext : (Switch.ofBool on).next false = on := by cases on <;> rfl
        have hwish : Aim.wish? v f = some on := by simp [Aim.wish?, hcheck, hw, hnext]
        have hmeet : form.meet (.ofEffect .checked on) h = form.meet (.ofValue v) h := by
          refine meet_congr hf (Aim.written_of_some hwish).symm ?_
          simp [Aim.picks, Aim.ofEffect, Aim.ofValue, Effect.isCheck, hcheck, hwish]
        simp only [apply, applyEach, reduceCtorEq, if_false]
        rw [marks_refresh, applyOne_eq_meet, hmeet]
    · next hcheck =>
      have hwish : Aim.wish? v f = none := if_neg hcheck
      have hpicks : (Aim.ofValue v).picks f = false := by simp [Aim.picks, Aim.ofValue, hwish]
      have hreach : (Aim.ofValue v).reach f = { f with value := v.asText } :=
        (Aim.written_of_none hwish).trans (if_neg hcheck)
      rw [meet_of_not_picks hf hpicks]
      split
      · next hsame =>
        rw [modify_of_fixed hf]
        rw [hreach, ← hsame]
      · exact congrArg marks (modify_congr hf hreach.symm)

/-- Options that are shown keep their selection. -/
theorem apply_set_optionVisible (form : Form) (hs : List Handle) :
    (form.apply hs .optionVisible .set).1 =
      (applyEach (fun form h => form.applyOne .optionVisible .set h) form hs).1.refresh := by
  have hset : ∀ n b, 0 < n → Switch.set.next^[n] b = true := by
    intro n b hn
    obtain ⟨m, rfl⟩ := Nat.exists_eq_add_of_lt hn
    rw [Nat.zero_add, Function.iterate_succ_apply']
    rfl
  simp only [apply, if_true]
  refine congrArg refresh (repairSelection_eq_self fun i hi g hg _ _ => ?_)
  have hshows := shows_applyEach_optionVisible form .set hs i
  rw [shows, hg, Option.map_some] at hshows
  obtain ⟨b, -, hb⟩ := Option.map_eq_some_iff.1 hshows.symm
  rw [← hb]
  exact hset _ b (List.count_pos_iff.2 hi)

/-- Only the set of the fields that are hidden matters. -/
theorem Hides.of_mem_iff {hs hs' : List Handle} (h : form.Hides hs form')
    (hmem : ∀ k, k ∈ hs' ↔ k ∈ hs) : form.Hides hs' form' where
  id := h.id
  field k := by simp only [hmem, h.field]
  checked k f g hf hg := by simpa only [LosesSelection, hmem] using h.checked k f g hf hg

/-- Setting or unsetting an effect a second time changes nothing. Hiding options is the exception:
to hide the same ones twice is to hide them, and that leaves one form. -/
theorem apply_apply (form : Form) (hs : List Handle) (e : Effect) (on : Bool) :
    ((form.apply hs e (.ofBool on)).1.apply hs e (.ofBool on)).1 =
      (form.apply hs e (.ofBool on)).1 := by
  by_cases he : e = .optionVisible
  · subst he
    cases on with
    | true =>
      have hset : Switch.ofBool true = .set := rfl
      rw [hset, apply_set_optionVisible, apply_set_optionVisible]
      exact (meets_applyOne .optionVisible true).repeat form hs
    | false =>
      have hfirst := hides_apply form hs
      have hmem : ∀ k, k ∈ hs ↔ k ∈ hs ++ hs := by simp
      have hboth := (hfirst.append (hides_apply _ hs)).of_mem_iff hmem
      have hrefresh := fun form => refresh_call form (.apply hs .optionVisible .unset)
      exact (hrefresh _).symm.trans ((hboth.refresh_eq hfirst).trans (hrefresh form))
  · have happly : ∀ form : Form, (form.apply hs e (.ofBool on)).1 =
        (applyEach (fun form h => form.applyOne e (.ofBool on) h) form hs).1.refresh := by
      intro form
      simp only [apply, if_neg he]
    rw [happly, happly]
    exact (meets_applyOne e on).repeat form hs

/-- Writing a value a second time changes nothing. -/
theorem write_write (form : Form) (hs : List Handle) (v : Value) :
    ((form.write hs v).1.write hs v).1 = (form.write hs v).1 :=
  (meets_writeOne v).repeat form hs

/-! ## What a call leaves alone -/

/-- A radio button or an option that may be checked or unchecked along with one of its group. -/
def IsSibling (form : Form) (hs : List Handle) (e : Effect) (f : FieldState) : Prop :=
  (e = .checked ∧ f.kind = .radio ∨ e = .optionVisible ∧ f.kind = .option) ∧
    ∃ h ∈ hs, ∃ g, form.field? h = some g ∧ g.kind = f.kind ∧ g.id = f.id

/-- `form'` is `form` after calls that apply the effect to the fields `hs`. -/
structure Spares (form : Form) (hs : List Handle) (e : Effect) (form' : Form) : Prop where
  id : form'.id = form.id
  /-- A field of `hs` differs in nothing once the effect is switched off before and after, and any
  other field differs in nothing at all. Checks and validity are left open. -/
  field : ∀ k, (form'.field? k).map (fun g => (if k ∈ hs then e.put false g else g).bare) =
    (form.field? k).map fun f => (if k ∈ hs then e.put false f else f).bare
  /-- Checked or unchecked is what is among `hs`, if this is the effect, or a sibling of these. -/
  checked : ∀ k f g, form.field? k = some f → form'.field? k = some g → g.checked ≠ f.checked →
    k ∈ hs ∧ e.isCheck f = true ∨ form.IsSibling hs e f

namespace Spares

variable {form'' : Form} {hs : List Handle} {e : Effect}

/-- The id and the kind of a field stay. -/
theorem same (hspares : form.Spares hs e form') {k : Handle} (hf : form.field? k = some f)
    (hg : form'.field? k = some g) : g.id = f.id ∧ g.kind = f.kind := by
  have hfield := hspares.field k
  rw [hf, hg, Option.map_some, Option.map_some, Option.some.injEq] at hfield
  have hput : ∀ x : FieldState, (if k ∈ hs then e.put false x else x).bare.id = x.id ∧
      (if k ∈ hs then e.put false x else x).bare.kind = x.kind := by
    intro x
    split
    · exact ⟨Effect.id_put e false x, Effect.kind_put e false x⟩
    · exact ⟨rfl, rfl⟩
  exact ⟨(hput g).1.symm.trans ((congrArg FieldState.id hfield).trans (hput f).1),
    (hput g).2.symm.trans ((congrArg FieldState.kind hfield).trans (hput f).2)⟩

/-- A call adds no fields. -/
theorem exists_before (hspares : form.Spares hs e form') {k : Handle}
    (hg : form'.field? k = some g) : ∃ f, form.field? k = some f := by
  have hfield := hspares.field k
  rw [hg, Option.map_some] at hfield
  obtain ⟨f, hf, -⟩ := Option.map_eq_some_iff.1 hfield.symm
  exact ⟨f, hf⟩

/-- A call removes no fields. -/
theorem exists_after (hspares : form.Spares hs e form') {k : Handle}
    (hf : form.field? k = some f) : ∃ g, form'.field? k = some g := by
  have hfield := hspares.field k
  rw [hf, Option.map_some] at hfield
  obtain ⟨g, hg, -⟩ := Option.map_eq_some_iff.1 hfield
  exact ⟨g, hg⟩

theorem refl (form : Form) (hs : List Handle) (e : Effect) : form.Spares hs e form where
  id := rfl
  field _ := rfl
  checked _ f g hf hg hne := by
    obtain rfl := Option.some.inj (hf.symm.trans hg)
    exact absurd rfl hne

/-- What two calls leave alone is left alone by both. -/
theorem trans (h₁ : form.Spares hs e form') (h₂ : form'.Spares hs e form'') :
    form.Spares hs e form'' where
  id := h₂.id.trans h₁.id
  field k := (h₂.field k).trans (h₁.field k)
  checked k f g hf hg hne := by
    obtain ⟨x, hx⟩ := h₁.exists_after hf
    obtain ⟨hid, hkind⟩ := h₁.same hf hx
    by_cases hsame : x.checked = f.checked
    · rcases h₂.checked k x g hx hg (hsame ▸ hne) with ⟨hk, hcheck⟩ | ⟨heffect, i, hi, y, hy, hsibling⟩
      · exact .inl ⟨hk, by simpa only [Effect.isCheck, hkind] using hcheck⟩
      · obtain ⟨z, hz⟩ := h₁.exists_before hy
        obtain ⟨hid', hkind'⟩ := h₁.same hz hy
        rw [hkind] at heffect
        rw [hkind, hid, hid', hkind'] at hsibling
        exact .inr ⟨heffect, i, hi, z, hz, hsibling⟩
    · exact h₁.checked k f x hf hx hsame

/-- An update of fields one by one. -/
theorem of_field {u : Handle → FieldState → FieldState} (hid : form'.id = form.id)
    (hfield : ∀ k, form'.field? k = (form.field? k).map (u k))
    (hu : ∀ k f, form.field? k = some f →
      (if k ∈ hs then e.put false (u k f) else u k f).bare =
        (if k ∈ hs then e.put false f else f).bare)
    (hchecked : ∀ k f, form.field? k = some f → (u k f).checked ≠ f.checked →
      k ∈ hs ∧ e.isCheck f = true ∨ form.IsSibling hs e f) : form.Spares hs e form' where
  id := hid
  field k := by
    rw [hfield]
    cases hf : form.field? k with
    | none => rfl
    | some f => exact congrArg some (hu k f hf)
  checked k f g hf hg hne := by
    rw [hfield, hf, Option.map_some, Option.some.injEq] at hg
    subst hg
    exact hchecked k f hf hne

/-- What may be checked or unchecked and what is recomputed is left open. -/
theorem of_bare {u : Handle → FieldState → FieldState} (hid : form'.id = form.id)
    (hfield : ∀ k, form'.field? k = (form.field? k).map (u k)) (hu : ∀ k f, (u k f).bare = f.bare)
    (hchecked : ∀ k f, form.field? k = some f → (u k f).checked ≠ f.checked →
      k ∈ hs ∧ e.isCheck f = true ∨ form.IsSibling hs e f) : form.Spares hs e form' := by
  refine .of_field hid hfield (fun k f _ => ?_) hchecked
  split
  · rw [e.bare_put, hu, ← e.bare_put]
  · exact hu k f

/-- What a call leaves alone is left alone by recomputing validity, too. -/
theorem refresh (hspares : form.Spares hs e form') : form.Spares hs e form'.refresh :=
  hspares.trans (.of_bare rfl (field?_refresh form') (fun _ _ => rfl) fun _ _ _ hne => absurd rfl hne)

/-- What each step spares, all of them spare. -/
theorem foldl {op : Form → Handle → Form}
    (hop : ∀ form : Form, ∀ h ∈ hs, form.Spares hs e (op form h)) (form : Form) :
    form.Spares hs e (hs.foldl op form) :=
  List.foldlRecOn hs op (.refl form hs e) fun _ hform h hh => hform.trans (hop _ h hh)

end Spares

variable {hs : List Handle} {e : Effect}

/-- Switching a property of an addressed field leaves the others alone. -/
theorem spares_modify (hh : h ∈ hs) (on : Bool) : form.Spares hs e (form.modify h (e.put on)) := by
  refine .of_field rfl (field?_modify form h · _) (fun k f _ => ?_) fun k f _ hne => ?_
  · by_cases hk : h = k
    · subst hk
      rw [if_pos rfl, if_pos hh, if_pos hh, e.put_false_put]
    · rw [if_neg hk]
  · by_cases hk : h = k
    · subst hk
      rw [if_pos rfl] at hne
      refine .inl ⟨hh, ?_⟩
      by_contra hcheck
      cases e <;> simp_all [Effect.put, Effect.isCheck]
    · rw [if_neg hk] at hne
      exact absurd rfl hne

/-- An effect at one field leaves the others alone, but for the check of its rivals. -/
theorem spares_applyOne (hh : h ∈ hs) (s : Switch) : form.Spares hs e (form.applyOne e s h).1 := by
  unfold applyOne
  cases hf : form.field? h with
  | none => exact .refl form hs e
  | some f =>
    dsimp only
    split
    · exact .refl form hs e
    · have hput : form.Spares hs e (form.modify h (e.put (s.next (e.holds f)))) :=
        spares_modify hh _
      unfold switchField
      dsimp only
      split
      · next hradio =>
        obtain ⟨rfl, -, hkind⟩ := hradio
        refine hput.trans (.of_bare rfl (field?_uncheckOthers _ h · f.id) (fun k g => ?_)
          fun k g _ hne => ?_)
        · split <;> rfl
        · split at hne
          · next hother =>
            simp only [Bool.and_eq_true, beq_iff_eq] at hother
            obtain ⟨f', hf'⟩ := hput.exists_after hf
            obtain ⟨hid', hkind'⟩ := hput.same hf hf'
            exact .inr ⟨.inl ⟨rfl, hother.1.2⟩, h, hh, f', hf', by rw [hkind', hkind, hother.1.2],
              by rw [hid', hother.2]⟩
          · exact absurd rfl hne
      · exact hput

/-- A selection moves from one option of a list to another. -/
theorem spares_repairOne (hh : h ∈ hs) : form.Spares hs .optionVisible (form.repairOne h) := by
  by_cases hselected : ∃ f, form.field? h = some f ∧ f.kind = .option ∧ f.hidden ∧ f.disabled ∧
    f.checked
  · obtain ⟨f, hf, hselected⟩ := hselected
    refine .of_bare ?_ (field?_repairOne_selected hf hselected) (fun _ _ => rfl) fun k g hg hne => ?_
    · exact (hides_repairOne_selected hf hselected).id
    · have hsibling : g.kind = .option ∧ f.id = g.id := by
        by_cases hk : h = k
        · subst hk
          obtain rfl := Option.some.inj (hf.symm.trans hg)
          exact ⟨hselected.1, rfl⟩
        · by_cases hfirst : form.firstOffered? f.id = some k
          · obtain ⟨hid, hkind⟩ := (firstOffered?_eq_some_iff.1 hfirst).1.same hg
            exact ⟨hkind, hid.symm⟩
          · simp [hk, hfirst] at hne
      exact .inr ⟨.inr ⟨rfl, hsibling.1⟩, h, hh, f, hf, hselected.1.trans hsibling.1.symm,
        hsibling.2⟩
  · rw [repairOne_of_not_selected hselected]
    exact .refl form hs _

/-- A call changes the form by what it does to the fields in turn. -/
theorem fst_applyEach (op : Form → Handle → Form × Bool) (form : Form) (hs : List Handle) :
    (applyEach op form hs).1 = hs.foldl (fun form h => (op form h).1) form := by
  induction hs generalizing form with
  | nil => rfl
  | cons h hs ih => exact ih _

/-- A call changes nothing but what its effect says. -/
theorem spares_apply (form : Form) (hs : List Handle) (e : Effect) (s : Switch) :
    form.Spares hs e (form.apply hs e s).1 := by
  have heach : form.Spares hs e (applyEach (fun form h => form.applyOne e s h) form hs).1 := by
    rw [fst_applyEach]
    exact .foldl (fun _ h hh => spares_applyOne hh s) form
  unfold apply
  dsimp only
  split
  · next he =>
    subst he
    exact (heach.trans (.foldl (fun _ h hh => spares_repairOne hh) _)).refresh
  · exact heach.refresh

/-! ## Handles that are not of the form -/

/-- A step that does nothing for a handle out of range can be left out. -/
theorem applyEach_filter {op : Form → Handle → Form × Bool}
    (hlength : ∀ form h, (op form h).1.fields.length = form.fields.length)
    (hnone : ∀ form h, form.field? h = none → op form h = (form, false)) {n : Nat} (form : Form)
    (hn : form.fields.length = n) (hs : List Handle) :
    applyEach op form hs = applyEach op form (hs.filter (· < n)) := by
  induction hs generalizing form with
  | nil => rfl
  | cons h hs ih =>
    by_cases hh : h < n
    · simp [applyEach, ih _ ((hlength form h).trans hn), hh]
    · have hfield : form.field? h = none := List.getElem?_eq_none (hn ▸ Nat.le_of_not_lt hh)
      simp [applyEach, hnone form h hfield, ih form hn, hh]

/-- Handles beyond the last field have no part in which selections are moved. -/
theorem repairSelection_filter {n : Nat} (form : Form) (hn : form.fields.length = n)
    (hs : List Handle) : form.repairSelection hs = form.repairSelection (hs.filter (· < n)) := by
  unfold repairSelection
  induction hs generalizing form with
  | nil => rfl
  | cons h hs ih =>
    by_cases hh : h < n
    · rw [List.filter_cons_of_pos (by simpa using hh), List.foldl_cons, List.foldl_cons]
      exact ih _ ((sameIds_repairOne form h).length_fields.trans hn)
    · have hfield : form.field? h = none := List.getElem?_eq_none (hn ▸ Nat.le_of_not_lt hh)
      have hself : form.repairOne h = form := by simp only [repairOne, hfield]
      rw [List.filter_cons_of_neg (by simpa using hh), List.foldl_cons, hself, ih form hn]

/-- Handles beyond the last field have no part in an effect. -/
theorem apply_filter (form : Form) (hs : List Handle) (e : Effect) (s : Switch) :
    form.apply hs e s = form.apply (hs.filter (· < form.fields.length)) e s := by
  have hlength : ∀ form h, (applyOne form e s h).1.fields.length = form.fields.length :=
    fun form h => (reports_applyOne form e s h).toSameIds.length_fields
  have hnone : ∀ form h, field? form h = none → applyOne form e s h = (form, false) :=
    fun form h hf => by simp only [applyOne, hf]
  have heach := applyEach_filter hlength hnone form rfl hs
  have hsame := (reports_applyEach (fun form h => reports_applyOne form e s h) form
    (hs.filter (· < form.fields.length))).toSameIds.length_fields
  simp only [apply, heach]
  rw [repairSelection_filter _ hsame hs]

/-- Setting or unsetting an effect twice on the same fields leaves the form that doing it once
leaves, and so does writing a value twice. With every switch, handles out of range are ignored, and
nothing changes but the property of the effect on the addressed fields, the checks of radio buttons
that share the id of one that is addressed for its check, the checks of options that share the id of
one that is shown or hidden, and which fields are valid. -/
theorem repeat_and_frame (form : Form) :
    (∀ hs e on, ((form.apply hs e (.ofBool on)).1.apply hs e (.ofBool on)).1 =
      (form.apply hs e (.ofBool on)).1) ∧
    (∀ hs v, ((form.write hs v).1.write hs v).1 = (form.write hs v).1) ∧
    ∀ hs e s, form.apply hs e s = form.apply (hs.filter (· < form.fields.length)) e s ∧
      form.Spares hs e (form.apply hs e s).1 :=
  ⟨fun hs e on => apply_apply form hs e on, fun hs v => write_write form hs v,
    fun hs e s => ⟨apply_filter form hs e s, spares_apply form hs e s⟩⟩

/-- Of the sizes that are checked one after the other, the last stays checked, both times. -/
example : ((parcel.apply [0, 2, 9, 1, 0] .checked .set).1.fields.map FieldState.checked).take 3 =
      [true, false, false] ∧
    (parcel.apply [0, 2, 9, 1, 0] .checked .set).2 = [0, 2, 1, 0] := by
  decide

end Form

end FormRules
