import FormRules.Proofs.Switches

/-!
# What every form satisfies

Forms are built field by field (`Form.IsBuilt`) and then changed by effects and writes
(`Form.Call`). Three things hold of all of them.

* Which fields are valid is up to date: everything that builds or changes a form ends by
  recomputing it, and recomputing it once more changes nothing (`Form.refresh_refresh`).
* In no group are two radio buttons checked, unless it was built so. Only one operation checks a
  radio button, and this one unchecks the rest of the group (`Form.IsExclusive.switchField`).
  Moving a selection checks options, and these are not radio buttons
  (`Form.IsExclusive.repairOne`).
* Of each field, the id and the kind stay, and the value as well unless the field is filled in
  (`Form.frames`).
-/

namespace FormRules

/-- What no operation changes of a field. Only a text has a value that is written. -/
def FieldState.frame (f : FieldState) : String × FieldKind × Option String :=
  (f.id, f.kind, if f.kind = .text then none else some f.value)

/-- A field up to whether it is valid. -/
def FieldState.marked (f : FieldState) : FieldState := { f with valid := true }

theorem Effect.frame_put (e : Effect) (on : Bool) (f : FieldState) :
    (e.put on f).frame = f.frame := by
  cases e with
  | checked =>
    simp only [Effect.put]
    split <;> rfl
  | _ => rfl

/-- Every effect but one leaves the check as it is. -/
theorem Effect.checked_put {e : Effect} (he : e ≠ .checked) (on : Bool) (f : FieldState) :
    (e.put on f).checked = f.checked := by
  cases e with
  | checked => exact absurd rfl he
  | _ => rfl

namespace Form

/-! ## Building and changing forms -/

/-- The forms that come from building: fields are added one by one, or as a group of boxes. -/
inductive IsBuilt : Form → Prop
  | empty (id : String) : IsBuilt (empty id)
  | add {form : Form} (h : IsBuilt form) (f : FieldState) : IsBuilt (form.add f)
  | addGroup {form : Form} (h : IsBuilt form) (kind : FieldKind) (id : String)
      (values : List String) (checked : Option String) :
      IsBuilt (form.addGroup kind id values checked)

/-- What changes a form. -/
inductive Call
  | apply (hs : List Handle) (e : Effect) (s : Switch)
  | write (hs : List Handle) (v : Value)

/-- The form after a call. -/
def call (form : Form) : Call → Form
  | .apply hs e s => (form.apply hs e s).1
  | .write hs v => (form.write hs v).1

/-- The form after one call after the other. -/
def calls (form : Form) (cs : List Call) : Form := cs.foldl call form

/-- What holds of a form and is kept by every operation on one handle holds after all of them. -/
theorem applyEach_of_step {P : Form → Prop} {op : Form → Handle → Form × Bool}
    (hop : ∀ form h, P form → P (op form h).1) {form : Form} (hform : P form) (hs : List Handle) :
    P (applyEach op form hs).1 := by
  induction hs generalizing form with
  | nil => exact hform
  | cons h hs ih => exact ih (hop form h hform)

/-! ## Validity -/

/-- Whether a field of the form has an answer: a text has content, a box is checked, and of a group
of radio buttons or options some member is checked. -/
def HasAnswer (form : Form) (f : FieldState) : Prop :=
  f.kind = .text ∧ f.value ≠ "" ∨ f.kind = .checkbox ∧ f.checked = true ∨
    (f.kind = .radio ∨ f.kind = .option) ∧
      ∃ g ∈ form.fields, g.id = f.id ∧ g.kind = f.kind ∧ g.checked = true

/-- A field counts as answered if it has an answer. -/
theorem isAnswered_eq_true_iff {form : Form} {f : FieldState} :
    isAnswered form.fields f = true ↔ form.HasAnswer f := by
  unfold isAnswered HasAnswer
  cases hkind : f.kind <;> simp [and_assoc]

/-- What is known to be valid has no part in which fields are. -/
theorem refresh_eq_of_marked {form form' : Form} (hid : form.id = form'.id)
    (hfield : ∀ k, (form.field? k).map FieldState.marked =
      (form'.field? k).map FieldState.marked) : form.refresh = form'.refresh := by
  have hmarked : form.fields.map FieldState.marked = form'.fields.map FieldState.marked := by
    refine List.ext_getElem? fun k => ?_
    rw [List.getElem?_map, List.getElem?_map]
    exact hfield k
  have hrefresh : ∀ form : Form, form.refresh.fields = (form.fields.map FieldState.marked).map
      fun f => { f with
        valid := !f.required || isAnswered (form.fields.map FieldState.marked) f } := by
    intro form
    rw [refresh, List.map_map]
    refine List.map_congr_left fun f _ => ?_
    have hanswered : isAnswered (form.fields.map FieldState.marked) f.marked =
        isAnswered form.fields f := by
      unfold isAnswered FieldState.marked
      cases hkind : f.kind <;> simp [List.any_map, Function.comp_def]
    simp only [Function.comp_apply, hanswered]
    rfl
  have hfields : form.refresh.fields = form'.refresh.fields := by
    rw [hrefresh, hrefresh, hmarked]
  simp only [refresh] at hfields ⊢
  rw [hid, hfields]

/-- Validity that has been recomputed is up to date. -/
theorem refresh_refresh (form : Form) : form.refresh.refresh = form.refresh :=
  refresh_eq_of_marked rfl fun k => by
    rw [field?_refresh, Option.map_map]
    rfl

/-- Where nothing is to be recomputed, the valid fields are those that are answered or need no
answer. -/
theorem valid_iff_of_refresh_eq {form : Form} (h : form.refresh = form) {f : FieldState}
    (hf : f ∈ form.fields) : f.valid = true ↔ f.required = false ∨ form.HasAnswer f := by
  obtain ⟨i, hi⟩ := List.getElem?_of_mem hf
  have hi : form.field? i = some f := hi
  have hfield : some f = some { f with valid := !f.required || isAnswered form.fields f } := by
    calc some f = form.refresh.field? i := by rw [h, hi]
      _ = some { f with valid := !f.required || isAnswered form.fields f } := by
        rw [field?_refresh, hi, Option.map_some]
  have hvalid : f.valid = (!f.required || isAnswered form.fields f) :=
    congrArg FieldState.valid (Option.some.inj hfield)
  rw [hvalid, Bool.or_eq_true, Bool.not_eq_true', isAnswered_eq_true_iff]

/-- Every call ends by recomputing validity. -/
theorem refresh_call (form : Form) (c : Call) : (form.call c).refresh = form.call c := by
  cases c <;> exact refresh_refresh _

/-- The validity of a form that has been built is up to date. -/
theorem IsBuilt.refresh_eq {form : Form} (h : form.IsBuilt) : form.refresh = form := by
  induction h with
  | empty id => rfl
  | add _ f _ => exact refresh_refresh _
  | addGroup _ kind id values checked ih =>
    exact List.foldlRecOn (motive := fun form : Form => form.refresh = form) values _ ih
      fun form _ _ _ => refresh_refresh ⟨form.id, _⟩

/-! ## Radio buttons -/

/-- Whether the field at `h` is a checked radio button of group `id`. -/
def IsPicked (form : Form) (id : String) (h : Handle) : Prop :=
  ∃ f, form.field? h = some f ∧ f.kind = .radio ∧ f.id = id ∧ f.checked = true

/-- Of each group of radio buttons, at most one is checked. -/
def IsExclusive (form : Form) : Prop :=
  ∀ id h k, form.IsPicked id h → form.IsPicked id k → h = k

namespace IsExclusive

variable {form form' : Form}

/-- A form stays exclusive where no further button is picked. -/
theorem of_isPicked (h : form.IsExclusive)
    (hpicked : ∀ id k, form'.IsPicked id k → form.IsPicked id k) : form'.IsExclusive :=
  fun id i k hi hk => h id i k (hpicked id i hi) (hpicked id k hk)

/-- An update of fields one by one that checks no radio button. -/
theorem of_field {g : Handle → FieldState → FieldState} (h : form.IsExclusive)
    (hfield : ∀ i, form'.field? i = (form.field? i).map (g i)) (hid : ∀ i f, (g i f).id = f.id)
    (hkind : ∀ i f, (g i f).kind = f.kind)
    (hchecked : ∀ i f, form.field? i = some f → f.kind = .radio → (g i f).checked = true →
      f.checked = true) : form'.IsExclusive := by
  refine h.of_isPicked ?_
  rintro id i ⟨f', hf', hradio, rfl, hc⟩
  rw [hfield] at hf'
  obtain ⟨f, hf, rfl⟩ := Option.map_eq_some_iff.1 hf'
  rw [hkind] at hradio
  exact ⟨f, hf, hradio, (hid i f).symm, hchecked i f hf hradio hc⟩

theorem refresh (h : form.IsExclusive) : form.refresh.IsExclusive :=
  h.of_field (g := fun _ f => { f with valid := !f.required || isAnswered form.fields f })
    (field?_refresh form) (fun _ _ => rfl) (fun _ _ => rfl) fun _ _ _ _ hc => hc

/-- A change that checks no button keeps a form exclusive. -/
theorem modify (h : form.IsExclusive) (i : Handle) {g : FieldState → FieldState}
    (hid : ∀ f, (g f).id = f.id) (hkind : ∀ f, (g f).kind = f.kind)
    (hchecked : ∀ f, form.field? i = some f → f.kind = .radio → (g f).checked = true →
      f.checked = true) : (form.modify i g).IsExclusive := by
  refine h.of_field (field?_modify form i · g) (fun k f => ?_) (fun k f => ?_)
    fun k f hf hradio hc => ?_
  · split <;> simp [hid]
  · split <;> simp [hkind]
  · split at hc
    · next hik => exact hchecked f (hik ▸ hf) hradio hc
    · exact hc

/-- Checking a button of a group unchecks the others. Of this group only the button itself can be
checked then, and of other groups the buttons that were. -/
theorem check (h : form.IsExclusive) (i : Handle) (id : String) (on : Bool)
    (hid : form.ids[i]? = some id) :
    ((form.modify i (Effect.checked.put on)).uncheckOthers i id).IsExclusive := by
  have hpicked : ∀ group k,
      ((form.modify i (Effect.checked.put on)).uncheckOthers i id).IsPicked group k →
      if group = id then k = i else form.IsPicked group k := by
    rintro group k ⟨f', hf', hradio, rfl, hc⟩
    rw [field?_uncheckOthers, field?_modify, Option.map_map] at hf'
    obtain ⟨f, hf, rfl⟩ := Option.map_eq_some_iff.1 hf'
    simp only [Function.comp_apply] at hradio hc ⊢
    by_cases hik : i = k
    · subst hik
      have hfid : f.id = id := by simpa [getElem?_ids, hf] using hid
      simp [Effect.id_put, hfid]
    · simp only [if_neg hik] at hradio hc ⊢
      split at hc
      · simp at hc
      · next hother =>
        rw [if_neg hother] at hradio ⊢
        have hgroup : f.id ≠ id := by
          rintro rfl
          exact hother (by simp [hradio, Ne.symm hik])
        rw [if_neg hgroup]
        exact ⟨f, hf, hradio, rfl, hc⟩
  intro group j k hj hk
  have hj := hpicked group j hj
  have hk := hpicked group k hk
  split at hj
  · next hgroup =>
    rw [if_pos hgroup] at hk
    exact hj.trans hk.symm
  · next hgroup =>
    rw [if_neg hgroup] at hk
    exact h group j k hj hk

/-- Checking a button unchecks the rest of its group. -/
theorem switchField (h : form.IsExclusive) {i : Handle} {f : FieldState}
    (hf : form.field? i = some f) (e : Effect) (on : Bool) :
    (form.switchField i e on f).IsExclusive := by
  unfold Form.switchField
  dsimp only
  split
  · next hradio =>
    obtain ⟨rfl, -, -⟩ := hradio
    exact h.check i f.id on (by rw [getElem?_ids, hf]; rfl)
  · next hradio =>
    refine h.modify i (Effect.id_put e on) (Effect.kind_put e on) fun g hg hkind hc => ?_
    obtain rfl := Option.some.inj (hf.symm.trans hg)
    by_cases he : e = .checked
    · subst he
      have hon : on = false := by simpa [hkind] using hradio
      simp [Effect.put, hkind, FieldKind.isCheckable, hon] at hc
    · rwa [Effect.checked_put he] at hc

/-- An effect at one field keeps a form exclusive. -/
theorem applyOne (h : form.IsExclusive) (e : Effect) (s : Switch) (i : Handle) :
    (form.applyOne e s i).1.IsExclusive := by
  unfold Form.applyOne
  cases hf : form.field? i with
  | none => exact h
  | some f =>
    dsimp only
    split
    · exact h
    · exact h.switchField hf e _

/-- Moving a selection checks an option, and options are not radio buttons. -/
theorem repairOne (h : form.IsExclusive) (i : Handle) : (form.repairOne i).IsExclusive := by
  unfold Form.repairOne
  cases hf : form.field? i with
  | none => exact h
  | some f =>
    dsimp only
    split
    · have hoff : (form.modify i fun f => { f with checked := false }).IsExclusive :=
        h.modify i (fun _ => rfl) (fun _ => rfl) fun _ _ _ hc => absurd hc Bool.false_ne_true
      split
      · next k hk =>
        refine hoff.modify k (fun _ => rfl) (fun _ => rfl) fun g hg hradio _ => ?_
        obtain ⟨hlt, hoffered, -⟩ := List.findIdx?_eq_some_iff_getElem.1 hk
        have hg : g = (form.modify i fun f => { f with checked := false }).fields[k] :=
          (List.getElem?_eq_some_iff.1 hg).2.symm
        rw [← hg] at hoffered
        simp [FieldState.isOffered, hradio] at hoffered
      · exact hoff
    · exact h

/-- Moving a selection is about options and not about buttons. -/
theorem repairSelection (h : form.IsExclusive) (hs : List Handle) :
    (form.repairSelection hs).IsExclusive :=
  List.foldlRecOn hs _ h fun _ hform i _ => hform.repairOne i

/-- An effect keeps a form exclusive. -/
theorem apply (h : form.IsExclusive) (hs : List Handle) (e : Effect) (s : Switch) :
    (form.apply hs e s).1.IsExclusive := by
  have heach : (applyEach (fun form i => form.applyOne e s i) form hs).1.IsExclusive :=
    applyEach_of_step (P := IsExclusive) (fun _ i hform => hform.applyOne e s i) h hs
  unfold Form.apply
  dsimp only
  split
  · exact (heach.repairSelection hs).refresh
  · exact heach.refresh

/-- A write to one field keeps a form exclusive. -/
theorem writeOne (h : form.IsExclusive) (v : Value) (i : Handle) :
    (Form.writeOne v form i).1.IsExclusive := by
  unfold Form.writeOne
  cases hf : form.field? i with
  | none => exact h
  | some f =>
    dsimp only
    split
    · split
      · exact h.apply [i] .checked _
      · exact h
    · split
      · exact h
      · exact h.modify i (fun _ => rfl) (fun _ => rfl) fun _ _ _ hc => hc

/-- Every call keeps a form exclusive. -/
theorem call (h : form.IsExclusive) (c : Call) : (form.call c).IsExclusive := by
  cases c with
  | apply hs e s => exact h.apply hs e s
  | write hs v =>
    exact (applyEach_of_step (P := IsExclusive) (fun _ i hform => hform.writeOne v i) h hs).refresh

end IsExclusive

/-! ## Ids, kinds and values -/

/-- What no operation changes of the fields. -/
def frames (form : Form) : List (String × FieldKind × Option String) :=
  form.fields.map FieldState.frame

/-- Frames stay if they do field by field. -/
theorem frames_of_field {form form' : Form} {g : Handle → FieldState → FieldState}
    (hfield : ∀ i, form'.field? i = (form.field? i).map (g i))
    (hg : ∀ i f, form.field? i = some f → (g i f).frame = f.frame) :
    form'.frames = form.frames := by
  refine List.ext_getElem? fun i => ?_
  have hi : form'.fields[i]? = (form.fields[i]?).map (g i) := hfield i
  rw [frames, frames, List.getElem?_map, List.getElem?_map, hi]
  cases hf : form.fields[i]? with
  | none => rfl
  | some f => exact congrArg some (hg i f hf)

theorem frames_refresh (form : Form) : form.refresh.frames = form.frames :=
  frames_of_field (field?_refresh form) fun _ _ _ => rfl

theorem frames_modify (form : Form) (h : Handle) {g : FieldState → FieldState}
    (hg : ∀ f, form.field? h = some f → (g f).frame = f.frame) :
    (form.modify h g).frames = form.frames := by
  refine frames_of_field (field?_modify form h · g) fun i f hf => ?_
  split
  · next hi => exact hg f (hi ▸ hf)
  · rfl

/-- Switching a property keeps frames. -/
theorem frames_switchField (form : Form) (h : Handle) (e : Effect) (on : Bool) (f : FieldState) :
    (form.switchField h e on f).frames = form.frames := by
  have hput : (form.modify h (e.put on)).frames = form.frames :=
    frames_modify form h fun f _ => Effect.frame_put e on f
  unfold switchField
  dsimp only
  split
  · refine (frames_of_field (field?_uncheckOthers _ h · f.id) fun _ _ _ => ?_).trans hput
    split <;> rfl
  · exact hput

/-- An effect at one field keeps frames. -/
theorem frames_applyOne (form : Form) (e : Effect) (s : Switch) (h : Handle) :
    (form.applyOne e s h).1.frames = form.frames := by
  unfold applyOne
  split
  · rfl
  · dsimp only
    split
    · rfl
    · exact frames_switchField form h e _ _

/-- Moving a selection keeps frames. -/
theorem frames_repairOne (form : Form) (h : Handle) : (form.repairOne h).frames = form.frames := by
  have hcheck : ∀ (form : Form) (h : Handle) (b : Bool),
      (form.modify h fun f => { f with checked := b }).frames = form.frames :=
    fun form h _ => frames_modify form h fun _ _ => rfl
  unfold repairOne
  split
  · rfl
  · split
    · dsimp only
      split
      · exact (hcheck _ _ true).trans (hcheck form h false)
      · exact hcheck form h false
    · rfl

/-- Effects keep frames. -/
theorem frames_apply (form : Form) (hs : List Handle) (e : Effect) (s : Switch) :
    (form.apply hs e s).1.frames = form.frames := by
  have heach : (applyEach (fun form h => form.applyOne e s h) form hs).1.frames = form.frames :=
    applyEach_of_step (P := fun form' => form'.frames = form.frames)
      (fun form' h hform => (frames_applyOne form' e s h).trans hform) rfl hs
  have hrepair : ∀ form : Form, (form.repairSelection hs).frames = form.frames := fun form =>
    List.foldlRecOn (motive := fun form' => form'.frames = form.frames) hs _ rfl
      fun form' hform h _ => (frames_repairOne form' h).trans hform
  unfold apply
  dsimp only
  rw [frames_refresh]
  split
  · exact (hrepair _).trans heach
  · exact heach

/-- A write keeps frames, since only texts are filled in. -/
theorem frames_writeOne (v : Value) (form : Form) (h : Handle) :
    (writeOne v form h).1.frames = form.frames := by
  unfold writeOne
  cases hf : form.field? h with
  | none => rfl
  | some f =>
    dsimp only
    split
    · split
      · exact frames_apply form [h] .checked _
      · rfl
    · next hcheckable =>
      split
      · rfl
      · refine frames_modify form h fun g hg => ?_
        obtain rfl := Option.some.inj (hf.symm.trans hg)
        have hkind : f.kind = .text := by
          cases hk : f.kind <;> simp [FieldKind.isCheckable, hk] at hcheckable ⊢
        simp [FieldState.frame, hkind]

/-- Every call keeps frames. -/
theorem frames_call (form : Form) (c : Call) : (form.call c).frames = form.frames := by
  cases c with
  | apply hs e s => exact frames_apply form hs e s
  | write hs v =>
    have heach : (applyEach (writeOne v) form hs).1.frames = form.frames :=
      applyEach_of_step (P := fun form' => form'.frames = form.frames)
        (fun form' h hform => (frames_writeOne v form' h).trans hform) rfl hs
    exact (frames_refresh _).trans heach

/-! ## All calls -/

/-- However a form is built and then changed: a field is valid if and only if it is not required or
has an answer; if the form was built with at most one checked radio button in each group, each group
has at most one; and the fields are those it was built with, in their order, with their ids, kinds
and, apart from texts, values. -/
theorem calls_invariant {form : Form} (hbuilt : form.IsBuilt) (cs : List Call) :
    (∀ f ∈ (form.calls cs).fields,
      f.valid = true ↔ f.required = false ∨ (form.calls cs).HasAnswer f) ∧
    (form.IsExclusive → (form.calls cs).IsExclusive) ∧
    (form.calls cs).frames = form.frames := by
  have hrefresh : (form.calls cs).refresh = form.calls cs :=
    List.foldlRecOn (motive := fun form' => form'.refresh = form') cs _ hbuilt.refresh_eq
      fun form' _ c _ => refresh_call form' c
  refine ⟨fun f hf => valid_iff_of_refresh_eq hrefresh hf, fun hexclusive => ?_, ?_⟩
  · exact List.foldlRecOn cs _ hexclusive fun _ hform c _ => hform.call c
  · exact List.foldlRecOn (motive := fun form' => form'.frames = form.frames) cs _ rfl
      fun form' hform c _ => (frames_call form' c).trans hform

/-- A parcel with a size, a wrapping and a note that has to be filled in. -/
def parcel : Form :=
  (((Form.empty "parcel").addGroup .radio "size" ["s", "m", "l"] (some "m")).addGroup .option
    "wrap" ["paper", "box"] (some "paper")).add
    { id := "note", kind := .text, value := "", required := true }

/-- Every size is switched over and then written, the wrapping in paper is hidden, and the note is
filled in. -/
def packing : List Call :=
  [.apply [0, 1, 2] .checked .toggle, .write [0, 1, 2, 0] (.bool true),
    .apply [3] .optionVisible .unset, .write [5] (.text "fragile")]

/-- The last size that was written is checked, the selection moves to the other wrapping, and the
note has become valid. -/
theorem calls_invariant_parcel : parcel.IsBuilt ∧ parcel.IsExclusive ∧
    (parcel.calls packing).fields.map (fun f => (f.checked, f.valid)) =
      [(true, true), (false, true), (false, true), (false, true), (true, true), (false, true)] ∧
    (parcel.fields.map FieldState.valid = [true, true, true, true, true, false]) ∧
    (parcel.calls packing).IsExclusive ∧ (parcel.calls packing).frames = parcel.frames ∧
    ∀ f ∈ (parcel.calls packing).fields,
      f.valid = true ↔ f.required = false ∨ (parcel.calls packing).HasAnswer f := by
  have hbuilt : parcel.IsBuilt := (((IsBuilt.empty _).addGroup _ _ _ _).addGroup _ _ _ _).add _
  have hpicked : ∀ i, (hi : i < parcel.fields.length) → parcel.fields[i].kind = .radio →
      parcel.fields[i].checked = true → i = 1 := by decide
  have hexclusive : parcel.IsExclusive := by
    rintro id i k ⟨f, hf, hfr, -, hfc⟩ ⟨g, hg, hgr, -, hgc⟩
    obtain ⟨hi, rfl⟩ := List.getElem?_eq_some_iff.1 hf
    obtain ⟨hk, rfl⟩ := List.getElem?_eq_some_iff.1 hg
    rw [hpicked i hi hfr hfc, hpicked k hk hgr hgc]
  obtain ⟨hvalid, hkept, hframes⟩ := calls_invariant hbuilt packing
  exact ⟨hbuilt, hexclusive, by decide +kernel, by decide, hkept hexclusive, hframes, hvalid⟩

end Form

end FormRules
