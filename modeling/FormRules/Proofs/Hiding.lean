import FormRules.Proofs.Answers
import FormRules.Proofs.Notices

/-!
# Hiding options

Hiding fields hides and disables them, and a select list that loses a selected option this way has
its selection moved to the first of its options that is still offered. The code does this option
by option: within one call after all of them are hidden, and so never to one of the call's own, but
over several calls from one option to the next.

`Form.Hides` says what has become of a form in which some fields were hidden, whatever happened in
between. It determines the form up to what is recomputed (`Form.Hides.refresh_eq`), it holds after
one call (`Form.hides_apply`), and hiding some fields and then others is hiding all of them
(`Form.Hides.append`). So it makes no difference in how many calls fields are hidden.
-/

namespace FormRules

namespace FieldState

/-- A field up to its check and whether it is valid. -/
def bare (f : FieldState) : FieldState := { f with checked := false, valid := true }

/-- A field that is hidden and disabled, as an option that is not offered. -/
def withdrawn (f : FieldState) : FieldState := { f with hidden := true, disabled := true }

theorem withdrawn_eq_self {f : FieldState} (hhidden : f.hidden = true)
    (hdisabled : f.disabled = true) : f.withdrawn = f := by
  cases f
  simp_all [withdrawn]

theorem bare_withdrawn {f g : FieldState} (h : f.bare = g.bare) :
    f.withdrawn.bare = g.withdrawn.bare := by
  change f.bare.withdrawn = g.bare.withdrawn
  rw [h]

theorem marked_eq {f g : FieldState} (hbare : f.bare = g.bare) (hchecked : f.checked = g.checked) :
    f.marked = g.marked := by
  cases f
  cases g
  simp_all [bare, marked]

end FieldState

namespace Form

variable {form form' form'' : Form} {hs hs' : List Handle}

/-! ## The first option on offer -/

/-- The field at `h` is an option of the list `id` that can be chosen. -/
def IsOfferedAt (form : Form) (id : String) (h : Handle) : Prop :=
  ∃ f, form.field? h = some f ∧ f.isOffered id = true

/-- What can be chosen from a list is an option of the list. -/
theorem IsOfferedAt.same {id : String} {h : Handle} {f : FieldState}
    (hoffered : form.IsOfferedAt id h) (hf : form.field? h = some f) :
    f.id = id ∧ f.kind = .option := by
  obtain ⟨g, hg, hoffered⟩ := hoffered
  obtain rfl := Option.some.inj (hf.symm.trans hg)
  simp only [FieldState.isOffered, Bool.and_eq_true, beq_iff_eq] at hoffered
  exact hoffered.1

/-- The first option of the list `id` that can be chosen. -/
def firstOffered? (form : Form) (id : String) : Option Handle :=
  form.fields.findIdx? (·.isOffered id)

theorem firstOffered?_eq_some_iff {id : String} {h : Handle} :
    form.firstOffered? id = some h ↔ form.IsOfferedAt id h ∧ ∀ j < h, ¬ form.IsOfferedAt id j := by
  rw [firstOffered?, List.findIdx?_eq_some_iff_getElem]
  constructor
  · rintro ⟨hlt, hoffered, hbefore⟩
    refine ⟨⟨_, List.getElem?_eq_getElem hlt, hoffered⟩, fun j hj => ?_⟩
    rintro ⟨f, hf, hfoffered⟩
    obtain ⟨hjlt, hj'⟩ := List.getElem?_eq_some_iff.1 hf
    exact hbefore j hj (hj' ▸ hfoffered)
  · rintro ⟨⟨f, hf, hoffered⟩, hbefore⟩
    obtain ⟨hlt, rfl⟩ := List.getElem?_eq_some_iff.1 hf
    refine ⟨hlt, hoffered, fun j hj hjoffered => hbefore j hj ?_⟩
    exact ⟨_, List.getElem?_eq_getElem (hj.trans hlt), hjoffered⟩

/-- Where an option is on offer, there is a first one. -/
theorem IsOfferedAt.exists_first {id : String} {h : Handle} (hoffered : form.IsOfferedAt id h) :
    ∃ j ≤ h, form.firstOffered? id = some j := by
  cases hfirst : form.firstOffered? id with
  | none =>
    obtain ⟨f, hf, hfoffered⟩ := hoffered
    have hno := List.findIdx?_eq_none_iff.1 hfirst f (List.mem_of_getElem? hf)
    rw [hfoffered] at hno
    contradiction
  | some j =>
    obtain ⟨-, hbefore⟩ := firstOffered?_eq_some_iff.1 hfirst
    exact ⟨j, Nat.le_of_not_lt fun hlt => hbefore h hlt hoffered, rfl⟩

/-- Checks have no part in whether an option is on offer. -/
theorem isOffered_of_bare {f g : FieldState} (h : f.bare = g.bare) (id : String) :
    f.isOffered id = g.isOffered id := by
  change f.bare.isOffered id = g.bare.isOffered id
  rw [h]

theorem IsOfferedAt.of_bare {id : String} {k : Handle} (hoffered : form.IsOfferedAt id k)
    (h : (form.field? k).map FieldState.bare = (form'.field? k).map FieldState.bare) :
    form'.IsOfferedAt id k := by
  obtain ⟨f, hf, hoffered⟩ := hoffered
  rw [hf, Option.map_some] at h
  obtain ⟨g, hg, hbare⟩ := Option.map_eq_some_iff.1 h.symm
  exact ⟨g, hg, (isOffered_of_bare hbare id).trans hoffered⟩

theorem firstOffered?_of_bare {id : String} (h : ∀ k, (form.field? k).map FieldState.bare =
    (form'.field? k).map FieldState.bare) : form.firstOffered? id = form'.firstOffered? id := by
  have hiff : ∀ k, form.IsOfferedAt id k ↔ form'.IsOfferedAt id k :=
    fun k => ⟨(·.of_bare (h k)), (·.of_bare (h k).symm)⟩
  exact Option.ext fun k => by simp only [firstOffered?_eq_some_iff, hiff]

/-! ## What hiding makes of a form -/

/-- One of the fields is a selected option of the list `id`. -/
def LosesSelection (form : Form) (hs : List Handle) (id : String) : Prop :=
  ∃ h ∈ hs, ∃ f, form.field? h = some f ∧ f.kind = .option ∧ f.id = id ∧ f.checked = true

/-- `form'` is `form` with the fields `hs` hidden. -/
structure Hides (form : Form) (hs : List Handle) (form' : Form) : Prop where
  id : form'.id = form.id
  /-- These fields are hidden and disabled. Checks and validity aside, nothing else changes. -/
  field : ∀ k, (form'.field? k).map FieldState.bare = (form.field? k).map fun f =>
    (if k ∈ hs then f.withdrawn else f).bare
  /-- A field is checked if it was and is no hidden option, or if it is the first option on offer of
  a list that lost a selected one. -/
  checked : ∀ k f g, form.field? k = some f → form'.field? k = some g → (g.checked = true ↔
    ¬ (k ∈ hs ∧ f.kind = .option) ∧ f.checked = true ∨
      form.LosesSelection hs f.id ∧ form'.firstOffered? f.id = some k)

theorem losesSelection_append {id : String} : form.LosesSelection (hs ++ hs') id ↔
    form.LosesSelection hs id ∨ form.LosesSelection hs' id := by
  simp only [LosesSelection, List.mem_append, or_and_right, exists_or]

namespace Hides

/-- A field afterwards comes from a field before, hidden if it is one of those. -/
theorem exists_before (h : form.Hides hs form') {k : Handle} {g : FieldState}
    (hg : form'.field? k = some g) : ∃ f, form.field? k = some f ∧
      g.bare = (if k ∈ hs then f.withdrawn else f).bare := by
  have hfield := h.field k
  rw [hg, Option.map_some] at hfield
  obtain ⟨f, hf, hbare⟩ := Option.map_eq_some_iff.1 hfield.symm
  exact ⟨f, hf, hbare.symm⟩

/-- A field before is still there. -/
theorem exists_after (h : form.Hides hs form') {k : Handle} {f : FieldState}
    (hf : form.field? k = some f) : ∃ g, form'.field? k = some g ∧
      g.bare = (if k ∈ hs then f.withdrawn else f).bare := by
  have hfield := h.field k
  rw [hf, Option.map_some] at hfield
  exact Option.map_eq_some_iff.1 hfield

/-- The id and the kind of a field stay. -/
theorem same (h : form.Hides hs form') {k : Handle} {f g : FieldState}
    (hf : form.field? k = some f) (hg : form'.field? k = some g) :
    g.id = f.id ∧ g.kind = f.kind := by
  obtain ⟨g', hg', hbare⟩ := h.exists_after hf
  obtain rfl := Option.some.inj (hg.symm.trans hg')
  have hid := congrArg FieldState.id hbare
  have hkind := congrArg FieldState.kind hbare
  split at hid <;> exact ⟨hid, hkind.trans (by split <;> rfl)⟩

/-- The fields are hidden and disabled, and those that were stay so. -/
theorem hidden (h : form.Hides hs form') {k : Handle} {f g : FieldState}
    (hf : form.field? k = some f) (hg : form'.field? k = some g)
    (hk : k ∈ hs ∨ f.hidden = true ∧ f.disabled = true) :
    g.hidden = true ∧ g.disabled = true := by
  obtain ⟨g', hg', hbare⟩ := h.exists_after hf
  obtain rfl := Option.some.inj (hg.symm.trans hg')
  have hput : (if k ∈ hs then f.withdrawn else f) = f.withdrawn := by
    split
    · rfl
    · next hnot =>
      obtain ⟨hh, hd⟩ := hk.resolve_left hnot
      exact (FieldState.withdrawn_eq_self hh hd).symm
  rw [hput] at hbare
  exact ⟨congrArg FieldState.hidden hbare, congrArg FieldState.disabled hbare⟩

/-- What is on offer is what was and is not hidden now. -/
theorem isOfferedAt_iff (h : form.Hides hs form') {id : String} {k : Handle} :
    form'.IsOfferedAt id k ↔ form.IsOfferedAt id k ∧ k ∉ hs := by
  constructor
  · rintro ⟨g, hg, hoffered⟩
    obtain ⟨f, hf, hbare⟩ := h.exists_before hg
    rw [isOffered_of_bare hbare] at hoffered
    split at hoffered
    · simp [FieldState.isOffered, FieldState.withdrawn] at hoffered
    · next hk => exact ⟨⟨f, hf, hoffered⟩, hk⟩
  · rintro ⟨⟨f, hf, hoffered⟩, hk⟩
    obtain ⟨g, hg, hbare⟩ := h.exists_after hf
    rw [if_neg hk] at hbare
    exact ⟨g, hg, (isOffered_of_bare hbare id).trans hoffered⟩

/-- A first option that is not hidden stays the first. -/
theorem firstOffered?_of_notMem (h : form.Hides hs form') {id : String} {k : Handle}
    (hfirst : form.firstOffered? id = some k) (hk : k ∉ hs) :
    form'.firstOffered? id = some k := by
  obtain ⟨hoffered, hbefore⟩ := firstOffered?_eq_some_iff.1 hfirst
  refine firstOffered?_eq_some_iff.2 ⟨h.isOfferedAt_iff.2 ⟨hoffered, hk⟩, fun j hj hjoffered => ?_⟩
  exact hbefore j hj (h.isOfferedAt_iff.1 hjoffered).1

/-- The first option afterwards was the first before, or the first before is hidden now. -/
theorem exists_firstOffered? (h : form.Hides hs form') {id : String} {k : Handle}
    (hfirst : form'.firstOffered? id = some k) :
    ∃ j, form.firstOffered? id = some j ∧ (j ∈ hs ∨ j = k) := by
  obtain ⟨hoffered, hbefore⟩ := firstOffered?_eq_some_iff.1 hfirst
  obtain ⟨j, hjk, hj⟩ := (h.isOfferedAt_iff.1 hoffered).1.exists_first
  refine ⟨j, hj, or_iff_not_imp_left.2 fun hjhs => ?_⟩
  have hjoffered := h.isOfferedAt_iff.2 ⟨(firstOffered?_eq_some_iff.1 hj).1, hjhs⟩
  exact (Nat.lt_or_eq_of_le hjk).resolve_left fun hlt => hbefore j hlt hjoffered

/-- The first option is an option of the list, and none of the hidden fields. -/
theorem of_firstOffered? (h : form.Hides hs form') {id : String} {k : Handle}
    (hfirst : form'.firstOffered? id = some k) :
    k ∉ hs ∧ ∃ g, form'.field? k = some g ∧ g.id = id ∧ g.kind = .option := by
  obtain ⟨hoffered, -⟩ := firstOffered?_eq_some_iff.1 hfirst
  have ⟨g, hg, _⟩ := hoffered
  exact ⟨(h.isOfferedAt_iff.1 hoffered).2, g, hg, hoffered.same hg⟩

/-! ### Hiding some fields and then others -/

/-- A list that loses a selected option in a second step had it before the first, or got it because
it lost one in the first. -/
theorem losesSelection (h : form.Hides hs form') {id : String}
    (hloses : form'.LosesSelection hs' id) :
    form.LosesSelection hs id ∨ form.LosesSelection hs' id := by
  obtain ⟨i, hi, g, hg, hkind, rfl, hchecked⟩ := hloses
  obtain ⟨f, hf, -⟩ := h.exists_before hg
  obtain ⟨hid, hfkind⟩ := h.same hf hg
  rw [hid]
  rcases (h.checked i f g hf hg).1 hchecked with ⟨-, hfchecked⟩ | ⟨hfirst, -⟩
  · exact .inr ⟨i, hi, f, hf, hfkind ▸ hkind, rfl, hfchecked⟩
  · exact .inl hfirst

/-- The other way round: where either step takes a selected option and something stays on offer, the
second step finds one to take, or it leaves the first option alone that the first step selected. -/
theorem losesSelection_or (h : form.Hides hs form') (h' : form'.Hides hs' form'') {id : String}
    {k : Handle} (hloses : form.LosesSelection (hs ++ hs') id)
    (hfirst : form''.firstOffered? id = some k) :
    form'.LosesSelection hs' id ∨
      form.LosesSelection hs id ∧ form'.firstOffered? id = some k := by
  have hnow : form.LosesSelection hs id → form'.LosesSelection hs' id ∨
      form.LosesSelection hs id ∧ form'.firstOffered? id = some k := by
    intro hloses
    obtain ⟨j, hj, hjhs | rfl⟩ := h'.exists_firstOffered? hfirst
    · obtain ⟨-, g, hg, rfl, hkind⟩ := h.of_firstOffered? hj
      obtain ⟨f, hf, -⟩ := h.exists_before hg
      have hchecked := (h.checked j f g hf hg).2 (.inr ((h.same hf hg).1 ▸ ⟨hloses, hj⟩))
      exact .inl ⟨j, hjhs, g, hg, hkind, rfl, hchecked⟩
    · exact .inr ⟨hloses, hj⟩
  rcases losesSelection_append.1 hloses with hloses | ⟨i, hi, f, hf, hkind, rfl, hchecked⟩
  · exact hnow hloses
  · by_cases hihs : i ∈ hs
    · exact hnow ⟨i, hihs, f, hf, hkind, rfl, hchecked⟩
    · obtain ⟨g, hg, -⟩ := h.exists_after hf
      obtain ⟨hid, hgkind⟩ := h.same hf hg
      have hgchecked := (h.checked i f g hf hg).2 (.inl ⟨fun hi => hihs hi.1, hchecked⟩)
      exact .inl ⟨i, hi, g, hg, hgkind.trans hkind, hid, hgchecked⟩

/-- Hiding some fields and then others is hiding all of them. -/
theorem append (h : form.Hides hs form') (h' : form'.Hides hs' form'') :
    form.Hides (hs ++ hs') form'' where
  id := h'.id.trans h.id
  field k := by
    cases hf : form.field? k with
    | none =>
      have hg : form'.field? k = none := by simpa [hf] using h.field k
      simpa [hg] using h'.field k
    | some f =>
      obtain ⟨g, hg, hbare⟩ := h.exists_after hf
      obtain ⟨g', hg', hbare'⟩ := h'.exists_after hg
      rw [hg', Option.map_some, Option.map_some, hbare']
      refine congrArg some ?_
      by_cases hk' : k ∈ hs'
      · rw [if_pos hk', if_pos (List.mem_append_right hs hk'), FieldState.bare_withdrawn hbare]
        split <;> rfl
      · rw [if_neg hk', hbare]
        simp only [List.mem_append, hk', or_false]
  checked k f g' hf hg' := by
    obtain ⟨g, hg, -⟩ := h.exists_after hf
    obtain ⟨hid, hkind⟩ := h.same hf hg
    have hfirst := h.checked k f g hf hg
    have hsecond := h'.checked k g g' hg hg'
    rw [hid, hkind] at hsecond
    rw [hsecond, hfirst]
    constructor
    · rintro (⟨hk', ⟨hk, hchecked⟩ | ⟨hloses, hoffered⟩⟩ | ⟨hloses, hoffered⟩)
      · refine .inl ⟨fun hmem => ?_, hchecked⟩
        exact (List.mem_append.1 hmem.1).elim (hk ⟨·, hmem.2⟩) (hk' ⟨·, hmem.2⟩)
      · obtain ⟨-, g₁, hg₁, -, hoption⟩ := h.of_firstOffered? hoffered
        obtain rfl := Option.some.inj (hg.symm.trans hg₁)
        have hkhs' : k ∉ hs' := fun hmem => hk' ⟨hmem, hkind ▸ hoption⟩
        exact .inr ⟨losesSelection_append.2 (.inl hloses),
          h'.firstOffered?_of_notMem hoffered hkhs'⟩
      · exact .inr ⟨losesSelection_append.2 (h.losesSelection hloses), hoffered⟩
    · rintro (⟨hk, hchecked⟩ | ⟨hloses, hoffered⟩)
      · refine .inl ⟨fun hmem => hk ⟨List.mem_append_right hs hmem.1, hmem.2⟩, .inl ⟨?_, hchecked⟩⟩
        exact fun hmem => hk ⟨List.mem_append_left hs' hmem.1, hmem.2⟩
      · rcases h.losesSelection_or h' hloses hoffered with hloses | hfirst
        · exact .inr ⟨hloses, hoffered⟩
        · obtain ⟨hkhs', -⟩ := h'.of_firstOffered? hoffered
          exact .inl ⟨fun hmem => hkhs' hmem.1, .inr hfirst⟩

/-! ### Hiding determines the form -/

/-- What hiding leaves open is recomputed. -/
theorem refresh_eq (h : form.Hides hs form') (h' : form.Hides hs form'') :
    form'.refresh = form''.refresh := by
  refine refresh_eq_of_marked (h.id.trans h'.id.symm) fun k => ?_
  cases hf : form.field? k with
  | none =>
    have hg : form'.field? k = none := by simpa [hf] using h.field k
    have hg' : form''.field? k = none := by simpa [hf] using h'.field k
    rw [hg, hg']
  | some f =>
    obtain ⟨g, hg, hbare⟩ := h.exists_after hf
    obtain ⟨g', hg', hbare'⟩ := h'.exists_after hf
    have hchecked : g.checked = g'.checked := Bool.eq_iff_iff.2 <| by
      rw [h.checked k f g hf hg, h'.checked k f g' hf hg',
        firstOffered?_of_bare fun k => (h.field k).trans (h'.field k).symm]
    rw [hg, hg', Option.map_some, Option.map_some]
    exact congrArg some (FieldState.marked_eq (hbare.trans hbare'.symm) hchecked)

end Hides

/-! ## One option -/

/-- Hidden fields of which none is selected stay as they are. -/
theorem Hides.self (hhidden : ∀ k ∈ hs, ∀ f, form.field? k = some f → f.hidden = true ∧
    f.disabled = true ∧ (f.kind = .option → f.checked = false)) : form.Hides hs form where
  id := rfl
  field k := by
    cases hf : form.field? k with
    | none => rfl
    | some f =>
      rw [Option.map_some, Option.map_some]
      split
      · next hk =>
        obtain ⟨hh, hd, -⟩ := hhidden k hk f hf
        rw [FieldState.withdrawn_eq_self hh hd]
      · rfl
  checked k f g hf hg := by
    obtain rfl := Option.some.inj (hf.symm.trans hg)
    have hnone : ¬ form.LosesSelection hs f.id := by
      rintro ⟨i, hi, f', hf', hkind, -, hchecked⟩
      rw [(hhidden i hi f' hf').2.2 hkind] at hchecked
      contradiction
    refine ⟨fun hchecked => .inl ⟨fun ⟨hk, hkind⟩ => ?_, hchecked⟩, ?_⟩
    · rw [(hhidden k hk f hf).2.2 hkind] at hchecked
      contradiction
    · rintro (⟨-, hchecked⟩ | ⟨hloses, -⟩)
      · exact hchecked
      · exact absurd hloses hnone

/-- A hidden option hands its selection on to the first option on offer. -/
theorem field?_repairOne_selected {h : Handle} {f : FieldState} (hf : form.field? h = some f)
    (hselected : f.kind = .option ∧ f.hidden ∧ f.disabled ∧ f.checked) (k : Handle) :
    (form.repairOne h).field? k = (form.field? k).map fun g =>
      { g with checked := decide (form.firstOffered? f.id = some k) ||
          (decide (h ≠ k) && g.checked) } := by
  have hoff : (form.modify h fun f => { f with checked := false }).firstOffered? f.id =
      form.firstOffered? f.id := by
    refine firstOffered?_of_bare fun k => ?_
    rw [field?_modify, Option.map_map]
    refine congrArg (Option.map · (form.field? k)) (funext fun g => ?_)
    simp only [Function.comp_apply]
    split <;> rfl
  simp only [repairOne, hf, if_pos hselected]
  rw [← firstOffered?, hoff]
  cases hfirst : form.firstOffered? f.id with
  | none =>
    rw [field?_modify]
    by_cases hk : h = k <;> simp [hk]
  | some i =>
    dsimp only
    rw [field?_modify, field?_modify, Option.map_map]
    refine congrArg (Option.map · (form.field? k)) (funext fun g => ?_)
    by_cases hi : i = k <;> by_cases hk : h = k <;> simp [hi, hk]

/-- An option that hands its selection on is hidden then, and its list has lost a selection. -/
theorem hides_repairOne_selected {h : Handle} {f : FieldState} (hf : form.field? h = some f)
    (hselected : f.kind = .option ∧ f.hidden ∧ f.disabled ∧ f.checked) :
    form.Hides [h] (form.repairOne h) := by
  have hfield := field?_repairOne_selected hf hselected
  have hbare : ∀ k, ((form.repairOne h).field? k).map FieldState.bare =
      (form.field? k).map FieldState.bare := by
    intro k
    rw [hfield, Option.map_map]
    rfl
  refine ⟨?_, fun k => ?_, fun k g g' hg hg' => ?_⟩
  · simp only [repairOne, hf, if_pos hselected]
    split <;> rfl
  · rw [hbare]
    by_cases hk : k = h
    · rw [hk, hf, Option.map_some, Option.map_some, if_pos (List.mem_singleton_self h),
        FieldState.withdrawn_eq_self hselected.2.1 hselected.2.2.1]
    · simp [hk]
  · rw [hfield, hg, Option.map_some] at hg'
    obtain rfl := Option.some.inj hg'
    have hloses : form.LosesSelection [h] g.id ↔ f.id = g.id := by
      simp [LosesSelection, hf, hselected.1, hselected.2.2.2]
    have hfirst : form.firstOffered? f.id = some k → f.id = g.id :=
      fun hfirst => ((firstOffered?_eq_some_iff.1 hfirst).1.same hg).1.symm
    have hself : h = k → g.kind = .option := by
      rintro rfl
      obtain rfl := Option.some.inj (hf.symm.trans hg)
      exact hselected.1
    rw [firstOffered?_of_bare hbare, hloses, List.mem_singleton, Bool.or_eq_true,
      Bool.and_eq_true, decide_eq_true_iff, decide_eq_true_iff]
    grind

/-- Nothing is done for a field that is no hidden option or not selected. -/
theorem repairOne_of_not_selected {h : Handle} (hselected : ¬ ∃ f, form.field? h = some f ∧
    f.kind = .option ∧ f.hidden ∧ f.disabled ∧ f.checked) : form.repairOne h = form := by
  unfold repairOne
  split
  · rfl
  · next f hf => exact if_neg fun hcond => hselected ⟨f, hf, hcond⟩

/-- Moving the selection off a hidden field is all that is left to do to hide it. -/
theorem hides_repairOne {h : Handle} (hhidden : ∀ f, form.field? h = some f → f.hidden = true ∧
    f.disabled = true) : form.Hides [h] (form.repairOne h) := by
  by_cases hselected : ∃ f, form.field? h = some f ∧ f.kind = .option ∧ f.hidden ∧ f.disabled ∧
    f.checked
  · obtain ⟨f, hf, hselected⟩ := hselected
    exact hides_repairOne_selected hf hselected
  · rw [repairOne_of_not_selected hselected]
    refine .self fun k hk f hf => ?_
    obtain rfl := List.mem_singleton.1 hk
    obtain ⟨hh, hd⟩ := hhidden f hf
    refine ⟨hh, hd, fun hkind => Bool.eq_false_iff.2 fun hchecked => ?_⟩
    exact hselected ⟨f, hf, hkind, hh, hd, hchecked⟩

/-! ## One call -/

/-- Once all fields of a call are hidden, its repairs do the rest. -/
theorem hides_repairSelection (hhidden : ∀ h ∈ hs, ∀ f, form.field? h = some f →
    f.hidden = true ∧ f.disabled = true) : form.Hides hs (form.repairSelection hs) := by
  induction hs generalizing form with
  | nil => exact .self (by simp)
  | cons h hs ih =>
    have hfirst := hides_repairOne (hhidden h List.mem_cons_self)
    refine hfirst.append (ih fun i hi g hg => ?_)
    obtain ⟨f, hf, -⟩ := hfirst.exists_before hg
    exact hfirst.hidden hf hg (.inr (hhidden i (List.mem_cons_of_mem h hi) f hf))

theorem field?_applyOne_unset (form : Form) (h k : Handle) :
    (form.applyOne .optionVisible .unset h).1.field? k =
      (form.field? k).map fun f => if h = k then f.withdrawn else f := by
  unfold applyOne
  cases hf : form.field? h with
  | none =>
    by_cases hk : h = k
    · rw [← hk, hf]
      rfl
    · simp [hk]
  | some f =>
    dsimp only
    split
    · next hnow =>
      obtain ⟨hh, hd⟩ := holds_optionVisible.1 hnow
      by_cases hk : h = k
      · rw [← hk, hf, Option.map_some, if_pos rfl, FieldState.withdrawn_eq_self hh hd]
      · simp [hk]
    · rw [switchField, if_neg (by simp), field?_modify]
      rfl

/-- What a call does before its repairs. -/
theorem field?_applyEach_unset (form : Form) (hs : List Handle) (k : Handle) :
    (applyEach (fun form h => form.applyOne .optionVisible .unset h) form hs).1.field? k =
      (form.field? k).map fun f => if k ∈ hs then f.withdrawn else f := by
  induction hs generalizing form with
  | nil => simp [applyEach]
  | cons h hs ih =>
    rw [applyEach, ih, field?_applyOne_unset, Option.map_map]
    refine congrArg (Option.map · (form.field? k)) (funext fun f => ?_)
    rcases eq_or_ne k h with rfl | hk
    · simp [FieldState.withdrawn]
    · simp [hk, hk.symm]

/-- Hiding and disabling fields leaves open only the checks. -/
theorem Hides.of_withdrawn (hid : form'.id = form.id)
    (hfield : ∀ k, form'.field? k = (form.field? k).map fun f => if k ∈ hs then f.withdrawn else f)
    (h : form'.Hides hs form'') : form.Hides hs form'' where
  id := h.id.trans hid
  field k := by
    rw [h.field, hfield, Option.map_map]
    refine congrArg (Option.map · (form.field? k)) (funext fun f => ?_)
    simp only [Function.comp_apply]
    split <;> rfl
  checked k f g hf hg := by
    have hsame : ∀ k (f : FieldState), (if k ∈ hs then f.withdrawn else f).id = f.id ∧
        (if k ∈ hs then f.withdrawn else f).kind = f.kind ∧
        (if k ∈ hs then f.withdrawn else f).checked = f.checked := by
      intro k f
      split <;> exact ⟨rfl, rfl, rfl⟩
    have hloses : form'.LosesSelection hs f.id ↔ form.LosesSelection hs f.id := by
      simp only [LosesSelection, hfield, Option.map_eq_some_iff, exists_exists_and_eq_and, hsame]
    have hf' := hfield k
    rw [hf, Option.map_some] at hf'
    have hchecked := h.checked k _ g hf' hg
    rwa [(hsame k f).1, (hsame k f).2.1, (hsame k f).2.2, hloses] at hchecked

/-- Recomputing what is valid hides nothing more. -/
theorem Hides.refresh (h : form.Hides hs form') : form.Hides hs form'.refresh := by
  have hbare : ∀ k, (form'.refresh.field? k).map FieldState.bare =
      (form'.field? k).map FieldState.bare := by
    intro k
    rw [field?_refresh, Option.map_map]
    rfl
  refine ⟨h.id, fun k => (hbare k).trans (h.field k), fun k f g hf hg => ?_⟩
  rw [field?_refresh] at hg
  obtain ⟨g', hg', rfl⟩ := Option.map_eq_some_iff.1 hg
  rw [firstOffered?_of_bare hbare]
  exact h.checked k f g' hf hg'

/-- One call hides its fields. -/
theorem hides_apply (form : Form) (hs : List Handle) :
    form.Hides hs (form.apply hs .optionVisible .unset).1 := by
  have hid : (applyEach (fun form h => form.applyOne .optionVisible .unset h) form hs).1.id =
      form.id :=
    (reports_applyEach (fun form h => reports_applyOne form .optionVisible .unset h) form hs).name
  have hfield := field?_applyEach_unset form hs
  simp only [apply, if_true]
  refine (Hides.of_withdrawn hid hfield (hides_repairSelection fun h hh g hg => ?_)).refresh
  rw [hfield] at hg
  obtain ⟨f, -, rfl⟩ := Option.map_eq_some_iff.1 hg
  rw [if_pos hh]
  exact ⟨rfl, rfl⟩

/-- Hiding fields one at a time hides them. -/
theorem hides_foldl (form : Form) (hs : List Handle) : form.Hides hs
    (hs.foldl (fun form h => (form.apply [h] .optionVisible .unset).1) form) := by
  induction hs generalizing form with
  | nil => exact .self (by simp)
  | cons h hs ih => exact (hides_apply form [h]).append (ih _)

/-! ## All forms -/

/-- The forms there are: fields are added and calls are made, in any order. -/
inductive IsReached : Form → Prop
  | empty (id : String) : IsReached (empty id)
  | add {form : Form} (h : IsReached form) (f : FieldState) : IsReached (form.add f)
  | call {form : Form} (h : IsReached form) (c : Call) : IsReached (form.call c)

theorem IsReached.addGroup (h : form.IsReached) (kind : FieldKind) (id : String)
    (values : List String) (checked : Option String) :
    (form.addGroup kind id values checked).IsReached :=
  List.foldlRecOn values _ h fun _ h _ _ => h.add _

/-- Whatever builds or changes a form leaves nothing to be recomputed. -/
theorem IsReached.refresh_eq (h : form.IsReached) : form.refresh = form := by
  cases h with
  | empty id => rfl
  | add _ f => exact refresh_refresh _
  | call _ c => exact refresh_call _ c

/-- Hiding some fields of a form in one call hides and disables each of them and leaves no option
among them checked. A list that loses a selected option has the first of its options that is still
offered checked, and gets none checked if none is offered; and no other field is checked or
unchecked. Hiding the fields one at a time, in their order, ends in the same form. -/
theorem hide_options {before : Form} (hbefore : before.IsReached) (hs : List Handle) :
    let after := (before.apply hs .optionVisible .unset).1
    (∀ h ∈ hs, ∀ f, before.field? h = some f → ∃ g, after.field? h = some g ∧
      g.hidden = true ∧ g.disabled = true ∧ (f.kind = .option → g.checked = false)) ∧
    (∀ id, before.LosesSelection hs id →
      (∀ k, after.firstOffered? id = some k → ∃ g, after.field? k = some g ∧ g.checked = true) ∧
      (after.firstOffered? id = none → ∀ k f g, before.field? k = some f →
        after.field? k = some g → f.kind = .option → f.id = id → g.checked = true →
        f.checked = true)) ∧
    (∀ k f, before.field? k = some f → (k ∈ hs → f.kind ≠ .option) →
      (before.LosesSelection hs f.id → after.firstOffered? f.id ≠ some k) →
      ∃ g, after.field? k = some g ∧ g.checked = f.checked) ∧
    hs.foldl (fun form h => (form.apply [h] .optionVisible .unset).1) before = after := by
  intro after
  have h : before.Hides hs after := hides_apply before hs
  refine ⟨fun k hk f hf => ?_, fun id hloses => ⟨fun k hfirst => ?_, fun hnone => ?_⟩,
    fun k f hf hoption hfirst => ?_, ?_⟩
  · obtain ⟨g, hg, -⟩ := h.exists_after hf
    obtain ⟨hh, hd⟩ := h.hidden hf hg (.inl hk)
    refine ⟨g, hg, hh, hd, fun hkind => Bool.eq_false_iff.2 fun hchecked => ?_⟩
    rcases (h.checked k f g hf hg).1 hchecked with ⟨hnot, -⟩ | ⟨-, hfirst⟩
    · exact hnot ⟨hk, hkind⟩
    · exact (h.of_firstOffered? hfirst).1 hk
  · obtain ⟨-, g, hg, rfl, -⟩ := h.of_firstOffered? hfirst
    obtain ⟨f, hf, -⟩ := h.exists_before hg
    exact ⟨g, hg, (h.checked k f g hf hg).2 (.inr ((h.same hf hg).1 ▸ ⟨hloses, hfirst⟩))⟩
  · rintro k f g hf hg - rfl hchecked
    rcases (h.checked k f g hf hg).1 hchecked with ⟨-, hfchecked⟩ | ⟨-, hfirst⟩
    · exact hfchecked
    · rw [hnone] at hfirst
      contradiction
  · obtain ⟨g, hg, -⟩ := h.exists_after hf
    refine ⟨g, hg, Bool.eq_iff_iff.2 ((h.checked k f g hf hg).trans ⟨?_, fun hchecked => ?_⟩)⟩
    · rintro (⟨-, hchecked⟩ | ⟨hloses, hoffered⟩)
      · exact hchecked
      · exact absurd hoffered (hfirst hloses)
    · exact .inl ⟨fun hk => hoption hk.1 hk.2, hchecked⟩
  · have hafter : after.IsReached := hbefore.call (.apply hs .optionVisible .unset)
    have hstepwise : (hs.foldl (fun form h => (form.apply [h] .optionVisible .unset).1)
        before).IsReached :=
      List.foldlRecOn hs _ hbefore fun _ h k _ => h.call (.apply [k] .optionVisible .unset)
    rw [← hafter.refresh_eq, ← hstepwise.refresh_eq]
    exact (hides_foldl before hs).refresh_eq h

/-- A dinner of which two courses are selected. -/
def dinner : Form :=
  ((Form.empty "dinner").addGroup .option "soup" ["leek", "onion", "none"] (some "leek")).addGroup
    .option "dessert" ["ice", "cake"] (some "cake")

/-- Leek and onion soup, cake and ice are off. In one call the soup is deselected at once; with one
at a time, onion soup is selected in between. No dessert is left to be selected. -/
theorem hide_options_dinner :
    dinner.IsReached ∧
    (dinner.apply [0] .optionVisible .unset).1.fields.map FieldState.checked =
      [false, true, false, false, true] ∧
    (dinner.apply [0, 4, 9, 1, 0, 3] .optionVisible .unset).1.fields.map FieldState.checked =
      [false, false, true, false, false] ∧
    [0, 4, 9, 1, 0, 3].foldl (fun form h => (form.apply [h] .optionVisible .unset).1) dinner =
      (dinner.apply [0, 4, 9, 1, 0, 3] .optionVisible .unset).1 := by
  have hreached : dinner.IsReached := ((IsReached.empty _).addGroup _ _ _ _).addGroup _ _ _ _
  obtain ⟨-, -, -, hsame⟩ := hide_options hreached [0, 4, 9, 1, 0, 3]
  exact ⟨hreached, by decide +kernel, by decide +kernel, hsame⟩

end Form

end FormRules
