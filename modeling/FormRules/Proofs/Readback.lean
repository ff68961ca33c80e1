import FormRules.Proofs.Answers
import FormRules.Proofs.Notices
import FormRules.Proofs.Writing
import Mathlib.Data.Nat.Find

/-!
# Reading back what was written

Writing goes through a group member by member, and reading gives the value of the first member that
is checked. A text takes any value. A radio button or option takes its own value only, by being
checked, and what reads as the group's value then depends on the other members: checking a radio
button unchecks them, checking an option does not, and nothing is unchecked where the button or
option was checked before.

So a group of texts reads as what was written (`Form.groupValue_write_text`). A group of radio
buttons or options does so unless a checked member with another value stands before all members
with the written one (`Form.IsOutranked`) and nothing unchecks it. In the groups of radio buttons
that have at most one checked, writing always unchecks it.
-/

namespace FormRules

theorem FieldKind.isCheckable_of_isChoice {kind : FieldKind} (h : kind.isChoice = true) :
    kind.isCheckable = true := by
  cases kind <;> simp_all [isChoice, isCheckable]

namespace Form

variable {form form' : Form} {id s : String} {kind : FieldKind} {h k : Handle} {hs : List Handle}

/-! ## Groups -/

/-- The members of a group, in document order. -/
def members (form : Form) (id : String) : List Handle := form.handlesWhere (·.id == id)

/-- All fields with this id are of one kind. -/
def IsOfKind (form : Form) (id : String) (kind : FieldKind) : Prop :=
  ∀ k f, form.field? k = some f → f.id = id → f.kind = kind

/-- The group has a name of its own, and fields of one kind. -/
structure IsGroup (form : Form) (id : String) (kind : FieldKind) : Prop where
  name : (Selector.mk id []).IsWritable
  notAlias : id ≠ formAlias
  notForm : id ≠ form.id
  ofKind : form.IsOfKind id kind

/-- The member at `k` is checked. -/
def IsSelected (form : Form) (id : String) (k : Handle) : Prop :=
  ∃ f, form.field? k = some f ∧ f.id = id ∧ f.checked = true

/-- The member at `k` has the value `s`. -/
def HasValue (form : Form) (id s : String) (k : Handle) : Prop :=
  ∃ f, form.field? k = some f ∧ f.id = id ∧ f.value = s

/-- A checked member stands before all members with the value `s`. -/
def IsOutranked (form : Form) (id s : String) : Prop :=
  ∃ k, form.IsSelected id k ∧ ∀ j ≤ k, ¬ form.HasValue id s j

/-- The members of a group are the fields of its id. -/
theorem mem_members : k ∈ form.members id ↔ ∃ f, form.field? k = some f ∧ f.id = id := by
  simp [members, mem_handlesWhere]

/-- The identifier of a group picks its members. -/
theorem IsGroup.pick (h : form.IsGroup id kind) :
    form.pick (.fields [⟨id, []⟩]) = form.members id := by
  have hnamed : form.isNamed id = (·.id == id) := by
    funext f
    simp [isNamed, h.notAlias, h.notForm]
  have hnodup : (form.members id).Nodup := List.nodup_range.filter _
  simp only [Form.pick, List.foldl_cons, List.foldl_nil, resolve, if_true, hnamed]
  simpa [members] using unionHandles_eq_filter [] hnodup

/-- The id of a group is an identifier without values. -/
theorem IsGroup.lenient (h : form.IsGroup id kind) : Spec.lenient id = .fields [⟨id, []⟩] := by
  have hwritable : (Spec.fields [⟨id, []⟩]).IsWritable := ⟨by simp, by simpa using h.name⟩
  have hparse := Spec.parse_render_of_isWritable hwritable
  have hrender : (Spec.fields [⟨id, []⟩]).render = id := by
    simp [Spec.render, Spec.chars, Selector.chars]
  rw [hrender] at hparse
  exact Spec.lenient_of_parse hparse

/-! ## Reading -/

/-- A group of texts reads as its first member. -/
theorem groupValue_text (hkind : form.IsOfKind id .text) (hmember : form.members id ≠ [])
    (hvalue : ∀ k ∈ form.members id, form.HasValue id s k) :
    form.groupValue (form.members id) = some (.text s) := by
  cases hms : form.members id with
  | nil => exact absurd hms hmember
  | cons k ks =>
    obtain ⟨f, hf, hid, rfl⟩ := hvalue k (hms ▸ List.mem_cons_self)
    simp [groupValue, hf, hkind k f hf hid, FieldKind.isChoice, FieldKind.isCheckable]

/-- A list of radio buttons or options reads as the first of them that is checked. -/
theorem groupValue_eq_text_iff_find? (hchoice : ∀ h ∈ hs, ∃ f, form.field? h = some f ∧
    f.kind.isChoice = true) : form.groupValue hs = some (.text s) ↔
      ∃ k f, hs.find? (fun h => (form.field? h).any FieldState.checked) = some k ∧
        form.field? k = some f ∧ f.value = s := by
  induction hs with
  | nil => simp [groupValue]
  | cons h hs ih =>
    obtain ⟨⟨f, hf, hkind⟩, hrest⟩ := List.forall_mem_cons.1 hchoice
    cases hchecked : f.checked with
    | true => simp [groupValue, hf, hkind, hchecked]
    | false =>
      rw [List.find?_cons_of_neg (by simp [hf, hchecked]), ← ih hrest]
      simp only [groupValue, hf, hkind, hchecked]
      cases form.groupValue hs <;> simp

/-- A group of radio buttons or options reads as the first member that is checked. -/
theorem groupValue_eq_text_iff (hkind : form.IsOfKind id kind) (hchoice : kind.isChoice = true) :
    form.groupValue (form.members id) = some (.text s) ↔
      ∃ k, form.IsSelected id k ∧ form.HasValue id s k ∧ ∀ j < k, ¬ form.IsSelected id j := by
  have hmembers : ∀ h ∈ form.members id, ∃ f, form.field? h = some f ∧ f.kind.isChoice = true := by
    intro h hh
    obtain ⟨f, hf, hid⟩ := mem_members.1 hh
    exact ⟨f, hf, hkind h f hf hid ▸ hchoice⟩
  have hselected : ∀ k, (form.field? k).any (·.id == id) = true ∧
      (form.field? k).any FieldState.checked = true ↔ form.IsSelected id k := by
    intro k
    cases hf : form.field? k <;> simp [IsSelected, hf]
  rw [groupValue_eq_text_iff_find? hmembers]
  simp only [members, handlesWhere, handles, List.find?_filter, List.find?_range_eq_some,
    Bool.not_eq_true', ← Bool.not_eq_true, decide_eq_true_iff, hselected, List.mem_range]
  constructor
  · rintro ⟨k, f, ⟨⟨f', hf', hid, hchecked⟩, -, hbefore⟩, hf, hvalue⟩
    obtain rfl := Option.some.inj (hf.symm.trans hf')
    exact ⟨k, ⟨f, hf, hid, hchecked⟩, ⟨f, hf, hid, hvalue⟩, hbefore⟩
  · rintro ⟨k, hk, ⟨f, hf, -, hvalue⟩, hbefore⟩
    exact ⟨k, f, ⟨hk, (List.getElem?_eq_some_iff.1 hf).1, hbefore⟩, hf, hvalue⟩

/-! ## Checks and values -/

/-- Validity has no part in what is selected. -/
theorem isSelected_refresh : form.refresh.IsSelected id k ↔ form.IsSelected id k := by
  simp [IsSelected, field?_refresh]

theorem hasValue_refresh : form.refresh.HasValue id s k ↔ form.HasValue id s k := by
  simp [HasValue, field?_refresh]

/-- Checking a field checks no other. -/
theorem isSelected_check {f : FieldState} (hf : form.field? h = some f)
    (hkind : f.kind.isCheckable = true) :
    (form.modify h (Effect.checked.put true)).IsSelected f.id k ↔
      k = h ∨ form.IsSelected f.id k := by
  rcases eq_or_ne k h with rfl | hk
  · simp [IsSelected, field?_modify, hf, Effect.put, hkind]
  · simp [IsSelected, field?_modify, hk, hk.symm]

/-- Of a group of radio buttons, all but one are unchecked. -/
theorem isSelected_uncheckOthers (hkind : form.IsOfKind id .radio) :
    (form.uncheckOthers h id).IsSelected id k ↔ k = h ∧ form.IsSelected id k := by
  simp only [IsSelected, field?_uncheckOthers, Option.map_eq_some_iff]
  constructor
  · rintro ⟨_, ⟨f, hf, rfl⟩, hid, hchecked⟩
    by_cases hk : k = h
    · simp_all
    · have hfid : f.id = id := by split at hid <;> exact hid
      simp [hk, hfid, hkind k f hf hfid] at hchecked
  · rintro ⟨rfl, f, hf, hid, hchecked⟩
    exact ⟨f, ⟨f, hf, by simp⟩, hid, hchecked⟩

/-! ## What writing keeps -/

/-- A field that is there when frames have stayed was there before. -/
theorem exists_field_of_frames (hframes : form'.frames = form.frames) {g : FieldState}
    (hg : form'.field? k = some g) : ∃ f, form.field? k = some f ∧ f.frame = g.frame := by
  have hk : (form'.field? k).map FieldState.frame = (form.field? k).map FieldState.frame := by
    have := congrArg (·[k]?) hframes
    rwa [frames, frames, List.getElem?_map, List.getElem?_map] at this
  rw [hg, Option.map_some] at hk
  exact Option.map_eq_some_iff.1 hk.symm

/-- Groups keep their kind while frames stay. -/
theorem IsOfKind.of_frames (hkind : form.IsOfKind id kind) (hframes : form'.frames = form.frames) :
    form'.IsOfKind id kind := by
  intro k g hg hid
  obtain ⟨f, hf, hframe⟩ := exists_field_of_frames hframes hg
  have hfid : f.id = g.id := congrArg Prod.fst hframe
  have hfkind : f.kind = g.kind := congrArg (·.2.1) hframe
  exact hfkind ▸ hkind k f hf (hfid.trans hid)

/-- Radio buttons and options keep their values. -/
theorem HasValue.of_frames (h : form'.HasValue id s k) (hkind : form.IsOfKind id kind)
    (hchoice : kind.isChoice = true) (hframes : form'.frames = form.frames) :
    form.HasValue id s k := by
  obtain ⟨g, hg, rfl, rfl⟩ := h
  obtain ⟨f, hf, hframe⟩ := exists_field_of_frames hframes hg
  simp only [FieldState.frame, Prod.mk.injEq] at hframe
  obtain ⟨hid, hsame, hvalue⟩ := hframe
  have hne : f.kind ≠ .text := by
    rintro htext
    rw [← hkind k f hf hid, htext] at hchoice
    contradiction
  rw [if_neg hne, if_neg (hsame ▸ hne)] at hvalue
  exact ⟨f, hf, hid, Option.some.inj hvalue⟩

/-- Writing to a choice changes no member's value. -/
theorem hasValue_writeOne (hkind : form.IsOfKind id kind) (hchoice : kind.isChoice = true)
    (v : Value) : (writeOne v form h).1.HasValue id s k ↔ form.HasValue id s k := by
  have hframes := frames_writeOne v form h
  exact ⟨(·.of_frames hkind hchoice hframes),
    (·.of_frames (hkind.of_frames hframes) hchoice hframes.symm)⟩

/-! ## Writing a value to a member -/

/-- A member that has another value, or is checked already, is left alone. -/
theorem isSelected_writeOne_of_imp (hkind : form.IsOfKind id kind) (hchoice : kind.isChoice = true)
    (hmember : h ∈ form.members id) (hidle : form.HasValue id s h → form.IsSelected id h) :
    (writeOne (.text s) form h).1.IsSelected id k ↔ form.IsSelected id k := by
  obtain ⟨f, hf, rfl⟩ := mem_members.1 hmember
  have hcheckable : f.kind.isCheckable = true :=
    FieldKind.isCheckable_of_isChoice (hkind h f hf rfl ▸ hchoice)
  by_cases hvalue : f.value = s
  · obtain ⟨f', hf', -, hchecked⟩ := hidle ⟨f, hf, rfl, hvalue⟩
    obtain rfl := Option.some.inj (hf.symm.trans hf')
    simp [writeOne, hf, hcheckable, writeSwitch?, hvalue, apply, applyEach, applyOne, Effect.holds,
      hchecked, Switch.next, isSelected_refresh]
  · simp [writeOne, hf, hcheckable, writeSwitch?, hvalue]

/-- A member with the value that is not checked becomes so, and a radio button becomes the only
one. -/
theorem isSelected_writeOne (hkind : form.IsOfKind id kind) (hchoice : kind.isChoice = true)
    (hvalue : form.HasValue id s h) (hnews : ¬ form.IsSelected id h) :
    (writeOne (.text s) form h).1.IsSelected id k ↔
      k = h ∨ kind = .option ∧ form.IsSelected id k := by
  obtain ⟨f, hf, rfl, rfl⟩ := hvalue
  have hfkind := hkind h f hf rfl
  have hchecked : f.checked = false :=
    Bool.eq_false_iff.2 fun hchecked => hnews ⟨f, hf, rfl, hchecked⟩
  have hcheckable : f.kind.isCheckable = true :=
    FieldKind.isCheckable_of_isChoice (hfkind ▸ hchoice)
  have hwrite : (writeOne (.text f.value) form h).1 =
      (form.switchField h .checked true f).refresh := by
    simp [writeOne, hf, hcheckable, writeSwitch?, apply, applyEach, applyOne, Effect.holds,
      hchecked, Switch.next]
  have hcheck := isSelected_check (k := k) hf hcheckable
  rw [hwrite, isSelected_refresh, switchField]
  cases kind with
  | radio =>
    have hradio : (form.modify h (Effect.checked.put true)).IsOfKind f.id .radio :=
      hkind.of_frames (frames_modify form h fun f _ => Effect.frame_put .checked true f)
    rw [if_pos ⟨rfl, rfl, hfkind⟩, isSelected_uncheckOthers hradio, hcheck]
    simp +contextual
  | option => simp [hfkind, hcheck]
  | text | checkbox => simp [FieldKind.isChoice] at hchoice

/-! ## Writing a value to a group -/

/-- Groups keep their members while ids stay. -/
theorem SameIds.members (h : form.SameIds form') : form'.members id = form.members id :=
  handlesWhere_congr h fun i f g hf hg => by
    obtain ⟨g', hg', hid⟩ := h.field hf
    obtain rfl := Option.some.inj (hg.symm.trans hg')
    rw [hid]

/-- Writing keeps groups. -/
theorem members_writeOne (v : Value) : (writeOne v form h).1.members id = form.members id :=
  (reports_writeOne v form h).toSameIds.members

theorem fst_applyEach_cons (op : Form → Handle → Form × Bool) (form : Form) (h : Handle)
    (hs : List Handle) :
    (applyEach op form (h :: hs)).1 = (applyEach op (op form h).1 hs).1 := rfl

/-- A write checks nobody where all who have the value are checked. -/
theorem isSelected_applyEach_of_imp (hkind : form.IsOfKind id kind) (hchoice : kind.isChoice = true)
    (hmember : hs ⊆ form.members id)
    (hidle : ∀ h ∈ hs, form.HasValue id s h → form.IsSelected id h) :
    (applyEach (writeOne (.text s)) form hs).1.IsSelected id k ↔ form.IsSelected id k := by
  induction hs generalizing form with
  | nil => exact Iff.rfl
  | cons h hs ih =>
    obtain ⟨hh, hrest⟩ := List.cons_subset.1 hmember
    obtain ⟨hhidle, hrestidle⟩ := List.forall_mem_cons.1 hidle
    have hsame : ∀ k, (writeOne (.text s) form h).1.IsSelected id k ↔ form.IsSelected id k :=
      fun k => isSelected_writeOne_of_imp hkind hchoice hh hhidle
    rw [fst_applyEach_cons, ← hsame]
    refine ih (hkind.of_frames (frames_writeOne _ form h)) (by rwa [members_writeOne]) ?_
    intro i hi hvalue
    rw [hasValue_writeOne hkind hchoice] at hvalue
    exact (hsame i).2 (hrestidle i hi hvalue)

/-- Of a list of options, a write checks those that have the value, and unchecks none. -/
theorem isSelected_applyEach_option (hkind : form.IsOfKind id .option)
    (hmember : hs ⊆ form.members id) :
    (applyEach (writeOne (.text s)) form hs).1.IsSelected id k ↔
      form.IsSelected id k ∨ k ∈ hs ∧ form.HasValue id s k := by
  induction hs generalizing form with
  | nil => simp [applyEach]
  | cons h hs ih =>
    obtain ⟨hh, hrest⟩ := List.cons_subset.1 hmember
    have hfirst : (writeOne (.text s) form h).1.IsSelected id k ↔
        form.IsSelected id k ∨ k = h ∧ form.HasValue id s k := by
      by_cases hidle : form.HasValue id s h → form.IsSelected id h
      · rw [isSelected_writeOne_of_imp hkind rfl hh hidle]
        refine ⟨Or.inl, ?_⟩
        rintro (hk | ⟨rfl, hk⟩)
        · exact hk
        · exact hidle hk
      · push Not at hidle
        rw [isSelected_writeOne hkind rfl hidle.1 hidle.2]
        constructor
        · rintro (rfl | ⟨-, hk⟩)
          · exact .inr ⟨rfl, hidle.1⟩
          · exact .inl hk
        · rintro (hk | ⟨rfl, -⟩)
          · exact .inr ⟨rfl, hk⟩
          · exact .inl rfl
    rw [fst_applyEach_cons, ih (hkind.of_frames (frames_writeOne _ form h))
      (by rwa [members_writeOne]), hfirst, hasValue_writeOne hkind rfl, List.mem_cons, or_assoc,
      ← or_and_right]

/-- Some member is checked, and only members with the value `s` are. -/
def IsSettled (form : Form) (id s : String) : Prop :=
  (∃ k, form.IsSelected id k) ∧ ∀ k, form.IsSelected id k → form.HasValue id s k

/-- A settled group stays so when validity is recomputed. -/
theorem IsSettled.refresh (h : form.IsSettled id s) : form.refresh.IsSettled id s := by
  simpa only [IsSettled, isSelected_refresh, hasValue_refresh] using h

/-- A radio button that is checked is the only one. -/
theorem isSettled_writeOne (hkind : form.IsOfKind id .radio) (hvalue : form.HasValue id s h)
    (hnews : ¬ form.IsSelected id h) : (writeOne (.text s) form h).1.IsSettled id s := by
  have hone : ∀ k, (writeOne (.text s) form h).1.IsSelected id k ↔ k = h := by
    intro k
    rw [isSelected_writeOne hkind rfl hvalue hnews]
    simp
  refine ⟨⟨h, (hone h).2 rfl⟩, fun k hk => ?_⟩
  rw [(hone k).1 hk, hasValue_writeOne hkind rfl]
  exact hvalue

/-- A group of radio buttons that is settled on a value stays so when it is written again. -/
theorem IsSettled.writeOne (hsettled : form.IsSettled id s) (hkind : form.IsOfKind id .radio)
    (hmember : h ∈ form.members id) : (writeOne (.text s) form h).1.IsSettled id s := by
  by_cases hidle : form.HasValue id s h → form.IsSelected id h
  · simpa only [IsSettled, isSelected_writeOne_of_imp hkind rfl hmember hidle,
      hasValue_writeOne hkind rfl] using hsettled
  · push Not at hidle
    exact isSettled_writeOne hkind hidle.1 hidle.2

/-- It stays so when it is written to several members. -/
theorem IsSettled.applyEach (hsettled : form.IsSettled id s) (hkind : form.IsOfKind id .radio)
    (hmember : hs ⊆ form.members id) :
    (applyEach (Form.writeOne (.text s)) form hs).1.IsSettled id s := by
  induction hs generalizing form with
  | nil => exact hsettled
  | cons h hs ih =>
    obtain ⟨hh, hrest⟩ := List.cons_subset.1 hmember
    rw [fst_applyEach_cons]
    exact ih (hsettled.writeOne hkind hh) (hkind.of_frames (frames_writeOne _ form h))
      (by rwa [members_writeOne])

/-- Of a group of radio buttons, a write that checks one leaves only buttons with the value. -/
theorem isSettled_applyEach (hkind : form.IsOfKind id .radio) (hmember : hs ⊆ form.members id)
    (hnews : ∃ h ∈ hs, form.HasValue id s h ∧ ¬ form.IsSelected id h) :
    (applyEach (writeOne (.text s)) form hs).1.IsSettled id s := by
  induction hs generalizing form with
  | nil => simp at hnews
  | cons h hs ih =>
    obtain ⟨hh, hrest⟩ := List.cons_subset.1 hmember
    have hkind' := hkind.of_frames (frames_writeOne (.text s) form h)
    have hrest' : hs ⊆ (writeOne (.text s) form h).1.members id := by rwa [members_writeOne]
    rw [fst_applyEach_cons]
    by_cases hidle : form.HasValue id s h → form.IsSelected id h
    · refine ih hkind' hrest' ?_
      obtain ⟨i, hi, hvalue, hselected⟩ := hnews
      rcases List.mem_cons.1 hi with rfl | hi
      · exact absurd (hidle hvalue) hselected
      · refine ⟨i, hi, (hasValue_writeOne hkind rfl _).2 hvalue, ?_⟩
        rwa [isSelected_writeOne_of_imp hkind rfl hh hidle]
    · push Not at hidle
      exact (isSettled_writeOne hkind hidle.1 hidle.2).applyEach hkind' hrest'

/-- A text takes what is written, and the other texts stay as they are. -/
theorem hasValue_writeOne_text (hkind : form.IsOfKind id .text) (hmember : h ∈ form.members id)
    (v : Value) : (writeOne v form h).1.HasValue id v.asText k ↔
      k = h ∨ form.HasValue id v.asText k := by
  obtain ⟨f, hf, hid⟩ := mem_members.1 hmember
  by_cases hvalue : f.value = v.asText
  · have hsame : (writeOne v form h).1 = form := by
      simp [writeOne, hf, hkind h f hf hid, FieldKind.isCheckable, hvalue]
    rw [hsame]
    refine ⟨Or.inr, ?_⟩
    rintro (rfl | hk)
    · exact ⟨f, hf, hid, hvalue⟩
    · exact hk
  · have hmodify : (writeOne v form h).1 = form.modify h fun f => { f with value := v.asText } := by
      simp [writeOne, hf, hkind h f hf hid, FieldKind.isCheckable, hvalue]
    rw [hmodify]
    rcases eq_or_ne k h with rfl | hk
    · simp [HasValue, field?_modify, hf, hid]
    · simp [HasValue, field?_modify, hk, hk.symm]

/-- Texts take what is written to them. -/
theorem hasValue_applyEach_text (hkind : form.IsOfKind id .text) (hmember : hs ⊆ form.members id)
    (v : Value) : (applyEach (writeOne v) form hs).1.HasValue id v.asText k ↔
      k ∈ hs ∨ form.HasValue id v.asText k := by
  induction hs generalizing form with
  | nil => simp [applyEach]
  | cons h hs ih =>
    obtain ⟨hh, hrest⟩ := List.cons_subset.1 hmember
    rw [fst_applyEach_cons, ih (hkind.of_frames (frames_writeOne v form h))
      (by rwa [members_writeOne]), hasValue_writeOne_text hkind hh, List.mem_cons, or_left_comm,
      or_assoc]

/-! ## Reading it back -/

/-- Where there is a handle there is a first one. -/
theorem exists_first {p : Handle → Prop} (h : ∃ k, p k) : ∃ k, p k ∧ ∀ j < k, ¬ p j := by
  classical exact ⟨Nat.find h, Nat.find_spec h, fun _ hj => Nat.find_min h hj⟩

/-- A group that is settled on a value reads as this value. -/
theorem IsSettled.groupValue_eq (h : form.IsSettled id s) (hkind : form.IsOfKind id kind)
    (hchoice : kind.isChoice = true) : form.groupValue (form.members id) = some (.text s) := by
  obtain ⟨k, hk, hbefore⟩ := exists_first h.1
  exact (groupValue_eq_text_iff hkind hchoice).2 ⟨k, hk, h.2 k hk, hbefore⟩

/-- Where all members with a value are checked, and of the others those that were, the group reads
as this value unless another one outranked it. -/
theorem groupValue_eq_iff_of_added (hkind : form'.IsOfKind id kind) (hchoice : kind.isChoice = true)
    (hselected : ∀ k, form'.IsSelected id k ↔ form.IsSelected id k ∨ form.HasValue id s k)
    (hvalue : ∀ k, form'.HasValue id s k ↔ form.HasValue id s k)
    (hmember : ∃ k, form.HasValue id s k) :
    form'.groupValue (form'.members id) = some (.text s) ↔ ¬ form.IsOutranked id s := by
  rw [groupValue_eq_text_iff hkind hchoice]
  simp only [hselected, hvalue]
  constructor
  · rintro ⟨k, -, hk, hbefore⟩ ⟨i, hi, hnone⟩
    have hik : i < k := Nat.lt_of_not_le fun hki => hnone k hki hk
    exact hbefore i hik (.inl hi)
  · intro hranked
    obtain ⟨i, hi⟩ := hmember
    obtain ⟨k, hk, hbefore⟩ := exists_first (p := fun k => form.IsSelected id k ∨
      form.HasValue id s k) ⟨i, .inr hi⟩
    by_contra hnot
    have hkvalue : ¬ form.HasValue id s k := fun hkvalue => hnot ⟨k, hk, hkvalue, hbefore⟩
    refine hranked ⟨k, hk.resolve_right hkvalue, fun j hj => ?_⟩
    rcases Nat.lt_or_eq_of_le hj with hj | rfl
    · exact fun hjvalue => hbefore j hj (.inr hjvalue)
    · exact hkvalue

theorem members_write (v : Value) : (form.write hs v).1.members id = form.members id :=
  (reports_write form hs v).toSameIds.members

/-- Writing keeps the kind of a group. -/
theorem IsOfKind.write (hkind : form.IsOfKind id kind) (hs : List Handle) (v : Value) :
    (form.write hs v).1.IsOfKind id kind :=
  hkind.of_frames (frames_call form (.write hs v))

/-- A group of texts reads as what was written to it. -/
theorem groupValue_write_text (hkind : form.IsOfKind id .text) (hmember : form.members id ≠ [])
    (v : Value) : (form.write (form.members id) v).1.groupValue (form.members id) =
      some (.text v.asText) := by
  have hread := groupValue_text (s := v.asText) (hkind.write (form.members id) v)
  rw [members_write] at hread
  refine hread hmember fun k hk => hasValue_refresh.2 ?_
  exact (hasValue_applyEach_text hkind (List.Subset.refl _) v).2 (.inl hk)

/-- A group of radio buttons or options reads as the value that was written to it, unless this value
is outranked and no radio button was newly checked. -/
theorem groupValue_write_eq_iff (hkind : form.IsOfKind id kind) (hchoice : kind.isChoice = true)
    (hmember : ∃ k, form.HasValue id s k) :
    (form.write (form.members id) (.text s)).1.groupValue (form.members id) = some (.text s) ↔
      ¬ form.IsOutranked id s ∨
        kind = .radio ∧ ∃ k, form.HasValue id s k ∧ ¬ form.IsSelected id k := by
  have hkind' := hkind.write (form.members id) (.text s)
  have hvalue : ∀ k, (form.write (form.members id) (.text s)).1.HasValue id s k ↔
      form.HasValue id s k :=
    fun k => ⟨(·.of_frames hkind hchoice (frames_call form (.write _ _))),
      (·.of_frames hkind' hchoice (frames_call form (.write _ _)).symm)⟩
  cases kind with
  | option =>
    have hread := groupValue_eq_iff_of_added hkind' rfl (fun k => ?_) hvalue hmember
    · rw [members_write] at hread
      simpa using hread
    · have hmem : form.HasValue id s k → k ∈ form.members id :=
        fun ⟨f, hf, hid, _⟩ => mem_members.2 ⟨f, hf, hid⟩
      refine isSelected_refresh.trans ?_
      rw [isSelected_applyEach_option hkind (List.Subset.refl _), and_iff_right_of_imp hmem]
  | radio =>
    by_cases hnews : ∃ k, form.HasValue id s k ∧ ¬ form.IsSelected id k
    · have hmembers : ∃ h ∈ form.members id, form.HasValue id s h ∧ ¬ form.IsSelected id h := by
        obtain ⟨k, ⟨f, hf, hid, hk⟩, hselected⟩ := hnews
        exact ⟨k, mem_members.2 ⟨f, hf, hid⟩, ⟨f, hf, hid, hk⟩, hselected⟩
      have hsettled : (form.write (form.members id) (.text s)).1.IsSettled id s :=
        (isSettled_applyEach hkind (List.Subset.refl _) hmembers).refresh
      have hread := hsettled.groupValue_eq hkind' rfl
      rw [members_write] at hread
      simp [hread, hnews]
    · have hidle : ∀ k, form.HasValue id s k → form.IsSelected id k := by
        push Not at hnews
        exact hnews
      have hread := groupValue_eq_iff_of_added hkind' rfl (fun k => ?_) hvalue hmember
      · rw [members_write] at hread
        simpa [hnews] using hread
      · refine isSelected_refresh.trans ?_
        rw [isSelected_applyEach_of_imp hkind rfl (List.Subset.refl _) fun h _ => hidle h,
          or_iff_left_of_imp (hidle k)]
  | text | checkbox => simp [FieldKind.isChoice] at hchoice

/-- In a group of radio buttons of which at most one is checked, a value is outranked only if its
buttons are not checked. -/
theorem IsExclusive.exists_not_isSelected (h : form.IsExclusive) (hkind : form.IsOfKind id .radio)
    (hmember : ∃ k, form.HasValue id s k) (houtranked : form.IsOutranked id s) :
    ∃ k, form.HasValue id s k ∧ ¬ form.IsSelected id k := by
  obtain ⟨k, hk⟩ := hmember
  obtain ⟨i, hi, hnone⟩ := houtranked
  refine ⟨k, hk, fun hselected => hnone i le_rfl ?_⟩
  have hpicked : ∀ j, form.IsSelected id j → form.IsPicked id j := by
    rintro j ⟨f, hf, hid, hchecked⟩
    exact ⟨f, hf, hkind j f hf hid, hid, hchecked⟩
  rwa [h id i k (hpicked i hi) (hpicked k hselected)]

end Form

/-! ## Hosts -/

namespace Host

variable {host : Host} {id : String} {kind : FieldKind}

/-- The id of a group names its members. -/
theorem value_fields (hgroup : host.form.IsGroup id kind) (quiet : Bool) :
    (host.fields id quiet).value = host.form.members id := by
  rw [fields, Traced.value_bind, Spec.value_read, value_resolve, hgroup.lenient, hgroup.pick]

/-- The value of a group is that of its members. -/
theorem value_valueOf (hgroup : host.form.IsGroup id kind) :
    (host.valueOf (Spec.lenient id)).value = host.form.groupValue (host.form.members id) := by
  rw [valueOf, Traced.value_bind, value_resolve, hgroup.lenient, hgroup.pick]
  rfl

end Host

/-- A group is a group after a write. -/
theorem Form.IsGroup.write {form : Form} {id : String} {kind : FieldKind}
    (h : form.IsGroup id kind) (hs : List Handle) (v : Value) :
    (form.write hs v).1.IsGroup id kind where
  name := h.name
  notAlias := h.notAlias
  notForm := (reports_write form hs v).name ▸ h.notForm
  ofKind := h.ofKind.write hs v

namespace Engine

/-- A write changes the form of its host. -/
theorem host?_write {e : Engine} {h : HostId} {host : Host} (hhost : e.host? h = some host)
    (id : String) (v : Value) (automatic : Bool) : (e.write h id v automatic).host? h =
      some { host with form := (host.form.write (host.fields id false).value v).1 } := by
  rw [write]
  simp only [hhost]
  split
  · exact host?_updateForm hhost _
  · exact host?_updateForm hhost _

/-- What is read after a write, as long as nothing else changes the form. A group of texts reads as
the text of the value. A group of radio buttons or options, of which some have the value, reads as
the value if and only if no checked member stands before all those that have it, or the members are
radio buttons and one that has the value was not checked. Where at most one radio button of a group
is checked, the group always reads as the value. -/
theorem value_after_write {e : Engine} {h : HostId} {host host' : Host} {id : String}
    {kind : FieldKind} (hhost : e.host? h = some host) (hgroup : host.form.IsGroup id kind)
    (hmember : host.form.members id ≠ []) (v : Value) (automatic : Bool)
    (hkept : ((e.write h id v automatic).host? h).map Host.form = some host'.form) :
    (kind = .text → (host'.valueOf (Spec.lenient id)).value = some (.text v.asText)) ∧
    ∀ s, v = .text s → (∃ k, host.form.HasValue id s k) →
      (kind.isChoice = true → ((host'.valueOf (Spec.lenient id)).value = some (.text s) ↔
        ¬ host.form.IsOutranked id s ∨
          kind = .radio ∧ ∃ k, host.form.HasValue id s k ∧ ¬ host.form.IsSelected id k)) ∧
      (kind = .radio → host.form.IsExclusive →
        (host'.valueOf (Spec.lenient id)).value = some (.text s)) := by
  rw [host?_write hhost, Host.value_fields hgroup] at hkept
  have hform : (host.form.write (host.form.members id) v).1 = host'.form := Option.some.inj hkept
  have hread : (host'.valueOf (Spec.lenient id)).value =
      (host.form.write (host.form.members id) v).1.groupValue (host.form.members id) := by
    rw [Host.value_valueOf (hform ▸ hgroup.write _ v), ← hform, Form.members_write]
  refine ⟨?_, ?_⟩
  · rintro rfl
    rw [hread, Form.groupValue_write_text hgroup.ofKind hmember]
  · rintro s rfl hvalue
    refine ⟨fun hchoice => ?_, ?_⟩
    · rw [hread, Form.groupValue_write_eq_iff hgroup.ofKind hchoice hvalue]
    · rintro rfl hexclusive
      rw [hread, Form.groupValue_write_eq_iff hgroup.ofKind rfl hvalue]
      refine or_iff_not_imp_left.2 fun houtranked => ⟨rfl, ?_⟩
      exact hexclusive.exists_not_isSelected hgroup.ofKind hvalue (not_not.1 houtranked)

end Engine

/-- A host for two sizes, the first of which is picked. -/
def sizeHost (kind : FieldKind) : Host where
  config := {}
  form := sizes kind
  actions := {}
  resolver := { rules := {} }
  evaluations := {}

/-- An engine with this host. -/
def sizing (kind : FieldKind) : Engine where
  hosts := [sizeHost kind]

/-- The sizes are one group. -/
theorem isGroup_sizes (kind : FieldKind) : (sizes kind).IsGroup "size" kind where
  name := by
    have hchars : "size".toList.all Selector.isNameChar = true := by decide
    refine ⟨by decide, fun c hc => ?_, by simp, by simp⟩
    exact Selector.isNameChar_iff.1 (List.all_eq_true.1 hchars c hc)
  notAlias := by decide
  notForm := by cases kind <;> decide
  ofKind k f hf _ := by
    have hkinds : ∀ f ∈ (sizes kind).fields, f.kind = kind := by cases kind <;> decide
    exact hkinds f (List.mem_of_getElem? hf)

theorem hasValue_sizes (kind : FieldKind) : (sizes kind).HasValue "size" "m" 1 :=
  ⟨{ id := "size", kind, value := "m" }, by cases kind <;> decide, rfl, rfl⟩

/-- Until it is written, the second size is outranked. -/
theorem isOutranked_sizes (kind : FieldKind) : (sizes kind).IsOutranked "size" "m" := by
  have hfirst : (sizes kind).field? 0 =
      some { id := "size", kind, value := "s", checked := true } := by cases kind <;> decide
  refine ⟨0, ⟨_, hfirst, rfl, rfl⟩, fun j hj => ?_⟩
  obtain rfl := Nat.le_zero.1 hj
  rintro ⟨f, hf, -, hvalue⟩
  obtain rfl := Option.some.inj (hfirst.symm.trans hf)
  exact absurd hvalue (by decide : "s" ≠ "m")

/-- Of the sizes as radio buttons one is checked at most. -/
theorem isExclusive_sizes : (sizes .radio).IsExclusive := by
  have hfirst : ∀ id k, (sizes .radio).IsPicked id k → k = 0 := by
    have hunchecked : ∀ k, (hk : k < (sizes .radio).fields.length) →
        (sizes .radio).fields[k].checked = true → k = 0 := by decide
    rintro id k ⟨f, hf, -, -, hchecked⟩
    obtain ⟨hk, rfl⟩ := List.getElem?_eq_some_iff.1 hf
    exact hunchecked k hk hchecked
  intro id i k hi hk
  rw [hfirst id i hi, hfirst id k hk]

namespace Engine

/-- The second size is written. As a radio button it is what is read then, and as an option it is
not: the first size is still picked, and stands before it. -/
theorem value_after_write_sizes :
    ∃ host₁ host₂ : Host,
      ((sizing .radio).write 0 "size" (.text "m") false).host? 0 = some host₁ ∧
      (host₁.valueOf (Spec.lenient "size")).value = some (.text "m") ∧
      ((sizing .option).write 0 "size" (.text "m") false).host? 0 = some host₂ ∧
      (host₂.valueOf (Spec.lenient "size")).value ≠ some (.text "m") := by
  have hhost : ∀ kind, (sizing kind).host? 0 = some (sizeHost kind) := fun _ => rfl
  have hmember : ∀ kind, (sizes kind).members "size" ≠ [] := by
    intro kind
    cases kind <;> decide
  have hwrite := fun kind => host?_write (hhost kind) "size" (.text "m") false
  have hread := fun kind => value_after_write (hhost kind) (isGroup_sizes kind) (hmember kind)
    (.text "m") false (congrArg (Option.map Host.form) (hwrite kind))
  refine ⟨_, _, hwrite .radio, ?_, hwrite .option, fun hm => ?_⟩
  · obtain ⟨-, hradio⟩ := (hread .radio).2 "m" rfl ⟨1, hasValue_sizes .radio⟩
    exact hradio rfl isExclusive_sizes
  · obtain ⟨hoption, -⟩ := (hread .option).2 "m" rfl ⟨1, hasValue_sizes .option⟩
    rcases (hoption rfl).1 hm with hranked | ⟨hkind, -⟩
    · exact hranked (isOutranked_sizes .option)
    · contradiction

/-- The value of an option is written to its list, and another option is read. -/
theorem written_option_not_read : ¬ ∀ (e : Engine) (h : HostId) (host host' : Host)
    (id s : String) (kind : FieldKind) (automatic : Bool), e.host? h = some host →
    host.form.IsGroup id kind → kind.isChoice = true → (∃ k, host.form.HasValue id s k) →
    ((e.write h id (.text s) automatic).host? h).map Host.form = some host'.form →
    (host'.valueOf (Spec.lenient id)).value = some (.text s) := by
  intro hclaim
  have hhost : (sizing .option).host? 0 = some (sizeHost .option) := rfl
  have hgroup : (sizeHost .option).form.IsGroup "size" .option := isGroup_sizes .option
  have hread := hclaim _ 0 _ _ "size" "m" .option false hhost hgroup rfl
    ⟨1, hasValue_sizes .option⟩
    (congrArg (Option.map Host.form) (host?_write hhost "size" (.text "m") false))
  rw [Host.value_valueOf (hgroup.write _ _), Form.members_write, Host.value_fields hgroup,
    Form.groupValue_write_eq_iff hgroup.ofKind rfl ⟨1, hasValue_sizes .option⟩] at hread
  rcases hread with hranked | ⟨hkind, -⟩
  · exact hranked (isOutranked_sizes .option)
  · contradiction

end Engine

end FormRules
