import FormRules.Proofs.Trees
import Mathlib.Data.List.Basic

/-!
# What conditions see of a form

A condition on a value sees a form through few glasses: the ids of the fields, and the kind, content
and checked state of those that its identifier names (`FieldState.view`). If two forms agree on
these, they agree on the condition (`Host.value_check_congr`).

Effects and writes report the fields that changed, but not all of them: checking a radio button
unchecks the rest of its group, and only the button is reported. `Form.Reports` is what holds
of every report: the ids stay, and where the view of a field changes, a field of its group is
reported. Listening to whole groups, without the values of selectors, is therefore
enough to hear of every change that matters (`Form.Reports.agree`).
-/

namespace FormRules

/-- What conditions on values see of a field. -/
def FieldState.view (f : FieldState) : FieldKind × String × Bool := (f.kind, f.value, f.checked)

namespace Form

/-- The ids of the fields. -/
def ids (form : Form) : List String := form.fields.map FieldState.id

/-- The ids of a form are those of its fields. -/
theorem getElem?_ids (form : Form) (h : Handle) :
    form.ids[h]? = (form.field? h).map FieldState.id :=
  List.getElem?_map

/-! ## Resolving identifiers -/

/-- The fields of an identifier. -/
def pick (form : Form) : Spec → List Handle
  | .all => form.handles
  | .fields ss => ss.foldl (fun found s => unionHandles found (form.resolve s)) []

/-- A field is picked by a test if it passes. -/
theorem mem_handlesWhere {form : Form} {p : FieldState → Bool} {h : Handle} :
    h ∈ form.handlesWhere p ↔ ∃ f, form.field? h = some f ∧ p f = true := by
  rw [handlesWhere, List.mem_filter, Option.any_eq_true]
  constructor
  · exact fun hp => hp.2
  · rintro ⟨f, hf, hp⟩
    have hlt : h < form.fields.length := (List.getElem?_eq_some_iff.1 hf).1
    exact ⟨List.mem_range.2 hlt, f, hf, hp⟩

/-- What is found is kept, and what is new is added. -/
theorem mem_unionHandles {known new : List Handle} {h : Handle} :
    h ∈ unionHandles known new ↔ h ∈ known ∨ h ∈ new := by
  unfold unionHandles
  induction new generalizing known with
  | nil => simp
  | cons x xs ih =>
    rw [List.foldl_cons, ih]
    by_cases hx : known.contains x = true
    · have hmem : x ∈ known := by simpa using hx
      rw [if_pos hx, List.mem_cons]
      constructor
      · rintro (h | h)
        · exact Or.inl h
        · exact Or.inr (Or.inr h)
      · rintro (h | rfl | h)
        · exact Or.inl h
        · exact Or.inl hmem
        · exact Or.inr h
    · rw [if_neg hx, List.mem_append, List.mem_singleton, List.mem_cons, or_assoc]

/-- A union keeps what is known, and appends the rest in its order. -/
theorem unionHandles_eq_filter (known : List Handle) {new : List Handle} (hnew : new.Nodup) :
    unionHandles known new = known ++ new.filter fun h => !known.contains h := by
  unfold unionHandles
  induction new generalizing known with
  | nil => simp
  | cons x xs ih =>
    obtain ⟨hx, hxs⟩ := List.nodup_cons.1 hnew
    rw [List.foldl_cons, ih _ hxs]
    by_cases hknown : x ∈ known
    · simp [hknown]
    · have hrest : (xs.filter fun h => !(known ++ [x]).contains h) =
          xs.filter fun h => !known.contains h := by
        refine List.filter_congr fun h hh => ?_
        have hne : h ≠ x := fun e => hx (e ▸ hh)
        simp [hne]
      have hcontains : known.contains x = false := by simpa using hknown
      rw [hcontains, if_neg Bool.false_ne_true, hrest, List.filter_cons, hcontains,
        if_pos (by rfl), List.append_assoc, List.singleton_append]

theorem mem_foldl_unionHandles {α : Type} {f : α → List Handle} {xs : List α}
    {found : List Handle} {h : Handle} :
    h ∈ xs.foldl (fun found x => unionHandles found (f x)) found ↔
      h ∈ found ∨ ∃ x ∈ xs, h ∈ f x := by
  induction xs generalizing found with
  | nil => simp
  | cons x xs ih => simp [ih, mem_unionHandles, or_assoc]

/-- An identifier picks what one of its selectors resolves to. -/
theorem mem_pick_fields {form : Form} {ss : List Selector} {h : Handle} :
    h ∈ form.pick (.fields ss) ↔ ∃ s ∈ ss, h ∈ form.resolve s := by
  simp [pick, mem_foldl_unionHandles]

/-- Without its value a selector resolves to the fields of its name. -/
theorem mem_resolve_group {form : Form} {s : Selector} {h : Handle} :
    h ∈ form.resolve s.group ↔ ∃ f, form.field? h = some f ∧ form.isNamed s.name f = true := by
  simp [resolve, Selector.group, mem_handlesWhere]

/-- The values of a selector pick members of its group. -/
theorem resolve_subset_group {form : Form} {s : Selector} {h : Handle} (hh : h ∈ form.resolve s) :
    h ∈ form.resolve s.group := by
  rw [mem_resolve_group]
  unfold resolve at hh
  split at hh
  · exact mem_handlesWhere.1 hh
  · rw [mem_foldl_unionHandles] at hh
    rcases hh with hh | ⟨v, -, hh⟩
    · simp at hh
    · obtain ⟨f, hf, hp⟩ := mem_handlesWhere.1 hh
      exact ⟨f, hf, (Bool.and_eq_true_iff.1 hp).1⟩

/-- An identifier without its values picks all that it picked with them. -/
theorem pick_subset_trigger {form : Form} {spec : Spec} {h : Handle} (hh : h ∈ form.pick spec) :
    h ∈ form.pick spec.trigger := by
  cases spec with
  | all => exact hh
  | fields ss =>
    obtain ⟨s, hs, hh⟩ := mem_pick_fields.1 hh
    exact mem_pick_fields.2 ⟨s.group, List.mem_map_of_mem hs, resolve_subset_group hh⟩

/-- Only fields of the form are picked. -/
theorem exists_field_of_mem_pick {form : Form} {spec : Spec} {h : Handle}
    (hh : h ∈ form.pick spec) : ∃ f, form.field? h = some f := by
  cases spec with
  | all =>
    have hlt : h < form.fields.length := by simpa [pick, handles] using hh
    exact ⟨_, List.getElem?_eq_getElem hlt⟩
  | fields ss =>
    obtain ⟨s, -, hh⟩ := mem_pick_fields.1 hh
    obtain ⟨f, hf, -⟩ := mem_resolve_group.1 (resolve_subset_group hh)
    exact ⟨f, hf⟩

/-- Of a group, a listener hears all members or none. -/
theorem mem_pick_trigger_of_ids {form : Form} {spec : Spec} {h c : Handle}
    (hh : h ∈ form.pick spec.trigger) (hc : form.ids[c]? = form.ids[h]?) :
    c ∈ form.pick spec.trigger := by
  cases spec with
  | all =>
    have hlt : h < form.ids.length := by simpa [Spec.trigger, pick, handles, ids] using hh
    have hlt' : c < form.ids.length := by
      rw [List.getElem?_eq_getElem hlt] at hc
      exact (List.getElem?_eq_some_iff.1 hc).1
    simpa [Spec.trigger, pick, handles, ids] using hlt'
  | fields ss =>
    obtain ⟨_, hmem, hh⟩ := mem_pick_fields.1 hh
    obtain ⟨s, -, rfl⟩ := List.mem_map.1 hmem
    obtain ⟨f, hf, hnamed⟩ := mem_resolve_group.1 hh
    rw [getElem?_ids, getElem?_ids, hf] at hc
    obtain ⟨g, hg, hid⟩ := Option.map_eq_some_iff.1 hc
    have hg' : form.isNamed s.name g = true := by
      rw [isNamed, hid]
      exact hnamed
    exact mem_pick_fields.2 ⟨s.group, hmem, mem_resolve_group.2 ⟨g, hg, hg'⟩⟩

/-! ## Agreement -/

/-- Two forms have the same fields, up to what effects and writes change. -/
structure SameIds (form form' : Form) : Prop where
  name : form'.id = form.id
  ids : form'.ids = form.ids

/-- Two forms agree on what a condition on the identifier sees. -/
structure Agree (form form' : Form) (spec : Spec) : Prop extends SameIds form form' where
  view : ∀ h ∈ form.pick spec.trigger,
    (form'.field? h).map FieldState.view = (form.field? h).map FieldState.view

theorem SameIds.refl (form : Form) : SameIds form form := ⟨rfl, rfl⟩

theorem SameIds.symm {form form' : Form} (h : SameIds form form') : SameIds form' form :=
  ⟨h.name.symm, h.ids.symm⟩

/-- Ids that stay twice are the same in the end. -/
theorem SameIds.trans {form form' form'' : Form} (h : SameIds form form')
    (h' : SameIds form' form'') : SameIds form form'' :=
  ⟨h'.name.trans h.name, h'.ids.trans h.ids⟩

theorem SameIds.length_fields {form form' : Form} (h : SameIds form form') :
    form'.fields.length = form.fields.length := by
  simpa [Form.ids] using congrArg List.length h.ids

/-- A field is still there when the ids have stayed. -/
theorem SameIds.field {form form' : Form} (h : SameIds form form') {i : Handle} {f : FieldState}
    (hf : form.field? i = some f) : ∃ g, form'.field? i = some g ∧ g.id = f.id := by
  have hid := congrArg (·[i]?) h.ids
  simp only [getElem?_ids, hf] at hid
  exact Option.map_eq_some_iff.1 hid

/-- Filters of fields that hold for the same ones pick the same handles. -/
theorem handlesWhere_congr {form form' : Form} {p q : FieldState → Bool} (h : SameIds form form')
    (hpq : ∀ i f g, form.field? i = some f → form'.field? i = some g → q g = p f) :
    form'.handlesWhere q = form.handlesWhere p := by
  unfold handlesWhere handles
  rw [h.length_fields]
  refine List.filter_congr fun i hi => ?_
  have hlt : i < form.fields.length := List.mem_range.1 hi
  have hf : form.field? i = some form.fields[i] := List.getElem?_eq_getElem hlt
  obtain ⟨g, hg, -⟩ := h.field hf
  rw [hf, hg, Option.any_some, Option.any_some]
  exact hpq i _ g hf hg

/-- A name means the same fields as long as the ids stay. -/
theorem SameIds.isNamed_at {form form' : Form} (h : SameIds form form') (name : String)
    {i : Handle} {f g : FieldState} (hf : form.field? i = some f) (hg : form'.field? i = some g) :
    form'.isNamed name g = form.isNamed name f := by
  obtain ⟨g', hg', hid⟩ := h.field hf
  obtain rfl := Option.some.inj (hg.symm.trans hg')
  rw [isNamed, isNamed, h.name, hid]

/-- Who listens to an identifier does not depend on the values in the form. -/
theorem SameIds.pick_trigger {form form' : Form} (h : SameIds form form') (spec : Spec) :
    form'.pick spec.trigger = form.pick spec.trigger := by
  cases spec with
  | all => simp [Spec.trigger, pick, handles, h.length_fields]
  | fields ss =>
    have hresolve : ∀ s : Selector, form'.resolve s.group = form.resolve s.group := fun s =>
      handlesWhere_congr h fun i f g hf hg => h.isNamed_at s.name hf hg
    simp [Spec.trigger, pick, List.foldl_map, hresolve]

/-- Forms that agree on an identifier agree on its selectors. -/
theorem Agree.resolve {form form' : Form} {ss : List Selector} (h : Agree form form' (.fields ss))
    {s : Selector} (hs : s ∈ ss) : form'.resolve s = form.resolve s := by
  unfold Form.resolve
  split
  · exact handlesWhere_congr h.toSameIds fun i f g hf hg => h.isNamed_at s.name hf hg
  · refine congrArg (fun F => List.foldl F [] s.values) (funext fun found => funext fun v => ?_)
    congr 1
    refine handlesWhere_congr h.toSameIds fun i f g hf hg => ?_
    rw [h.isNamed_at s.name hf hg]
    cases hnamed : form.isNamed s.name f with
    | false => rfl
    | true =>
      have hmem : i ∈ form.pick (Spec.fields ss).trigger :=
        mem_pick_fields.2 ⟨s.group, List.mem_map_of_mem hs, mem_resolve_group.2 ⟨f, hf, hnamed⟩⟩
      have hview := h.view i hmem
      rw [hf, hg] at hview
      have hvalue : g.value = f.value := congrArg (·.2.1) (Option.some.inj hview)
      rw [hvalue]

/-- Forms that agree on an identifier pick the same fields for it. -/
theorem Agree.pick {form form' : Form} {spec : Spec} (h : Agree form form' spec) :
    form'.pick spec = form.pick spec := by
  cases spec with
  | all => exact h.toSameIds.pick_trigger .all
  | fields ss => exact List.foldl_ext _ _ _ fun found s hs => by rw [h.resolve hs]

/-- The value of a field is in its view. -/
theorem value?_congr {form form' : Form} {h : Handle}
    (hview : (form'.field? h).map FieldState.view = (form.field? h).map FieldState.view) :
    form'.value? h = form.value? h := by
  unfold value? groupValue
  cases hf : form.field? h with
  | none =>
    have hg : form'.field? h = none := by simpa [hf] using hview
    rw [hg]
    rfl
  | some f =>
    rw [hf] at hview
    obtain ⟨g, hg, hfg⟩ := Option.map_eq_some_iff.1 hview
    rw [hg]
    obtain ⟨hkind, hrest⟩ := Prod.mk.inj hfg
    obtain ⟨hvalue, hchecked⟩ := Prod.mk.inj hrest
    simp only [hkind, hvalue, hchecked, groupValue]

end Form

/-! ## Conditions on values -/

/-- The entry looks at the condition and the value, and at nothing else of the field or the
script. -/
def Evaluation.ReadsValueOnly (entry : Evaluation) : Prop :=
  ∀ flags flags' c f f' v, entry.predicate flags c f v = entry.predicate flags' c f' v

/-- The fields of some selectors are collected from the first to the last. -/
theorem Host.value_resolveAll (host : Host) (quiet : Bool) (found : List Handle)
    (ss : List Selector) : (host.resolveAll quiet found ss).value =
      ss.foldl (fun found s => Form.unionHandles found (host.form.resolve s)) found := by
  induction ss generalizing found with
  | nil => rfl
  | cons s ss ih =>
    simp only [resolveAll, List.foldl_cons]
    split
    · exact ih _
    · exact ih _

/-- Resolving an identifier is picking its fields, whatever is logged on the way. -/
theorem Host.value_resolve (host : Host) (spec : Spec) (quiet : Bool) :
    (host.resolve spec quiet).value = host.form.pick spec := by
  cases spec with
  | all => rfl
  | fields ss => exact host.value_resolveAll quiet [] ss

/-- A condition on a field holds if it holds of each field that is picked, and if there is none then
its default decides. -/
theorem Host.value_check (host : Host) (flags : Flags) (spec : Spec) (c : Value) :
    (host.check flags spec c).value =
      if host.form.pick spec = [] then (host.evaluations.lookup c).default
      else (host.form.pick spec).all fun h => match host.form.field? h with
        | some f => (host.evaluations.lookup c).predicate flags c f (host.form.value? h)
        | none => true := by
  simp only [Host.check, Traced.value_bind, Host.value_resolve]
  split
  · rfl
  · rw [Traced.value_allM]
    congr 1
    funext h
    cases host.form.field? h <;> rfl

/-- Hosts whose forms agree on what a condition on a value sees agree on the condition. -/
theorem Host.value_check_congr {host host' : Host} {spec : Spec} {c : Value}
    (hevaluations : host'.evaluations = host.evaluations)
    (hreads : (host.evaluations.lookup c).ReadsValueOnly)
    (hagree : host.form.Agree host'.form spec) (flags flags' : Flags) :
    (host'.check flags' spec c).value = (host.check flags spec c).value := by
  rw [Host.value_check, Host.value_check, hevaluations, hagree.pick]
  split
  · rfl
  · rw [Bool.eq_iff_iff, List.all_eq_true, List.all_eq_true]
    refine forall₂_congr fun h hh => ?_
    have hview := hagree.view h (Form.pick_subset_trigger hh)
    rw [Form.value?_congr hview]
    cases hf : host.form.field? h with
    | none =>
      have hg : host'.form.field? h = none := by simpa [hf] using hview
      rw [hg]
    | some f =>
      obtain ⟨g, hg, -⟩ := hagree.field hf
      rw [hg]
      simp only
      rw [hreads flags' flags c g f]

namespace Form

/-! ## Reports -/

/-- `form'` is `form` after an update that reports the fields `changed`: where a field differs in
what conditions see, a field of its group is reported. -/
structure Reports (form form' : Form) (changed : List Handle) : Prop extends
    SameIds form form' where
  view : ∀ h, (form'.field? h).map FieldState.view ≠ (form.field? h).map FieldState.view →
    ∃ c ∈ changed, form.ids[c]? = form.ids[h]?

namespace Reports

variable {form form' form'' : Form} {changed changed' : List Handle}

theorem refl (form : Form) (changed : List Handle) : Reports form form changed :=
  ⟨.refl form, fun _ h => absurd rfl h⟩

/-- Two changes in a row report what both report. -/
theorem trans (h : Reports form form' changed) (h' : Reports form' form'' changed') :
    Reports form form'' (changed ++ changed') := by
  refine ⟨h.toSameIds.trans h'.toSameIds, fun i hi => ?_⟩
  by_cases hmid : (form'.field? i).map FieldState.view = (form.field? i).map FieldState.view
  · obtain ⟨c, hc, hid⟩ := h'.view i (hmid ▸ hi)
    exact ⟨c, List.mem_append_right _ hc, by rwa [h.ids] at hid⟩
  · obtain ⟨c, hc, hid⟩ := h.view i hmid
    exact ⟨c, List.mem_append_left _ hc, hid⟩

/-- It does no harm to report more. -/
theorem mono (h : Reports form form' changed) (hsub : changed ⊆ changed') :
    Reports form form' changed' :=
  ⟨h.toSameIds, fun i hi => (h.view i hi).imp fun _ hc => ⟨hsub hc.1, hc.2⟩⟩

/-- An update of fields one by one, each in its place. -/
theorem of_field {g : Handle → FieldState → FieldState} (hname : form'.id = form.id)
    (hfield : ∀ i, form'.field? i = (form.field? i).map (g i)) (hid : ∀ i f, (g i f).id = f.id)
    (hview : ∀ i f, form.field? i = some f → (g i f).view ≠ f.view →
      ∃ c ∈ changed, form.ids[c]? = some f.id) : Reports form form' changed := by
  refine ⟨⟨hname, List.ext_getElem? fun i => ?_⟩, fun i hi => ?_⟩
  · rw [getElem?_ids, getElem?_ids, hfield]
    cases form.field? i <;> simp [hid]
  · rw [getElem?_ids]
    cases hf : form.field? i with
    | none => simp [hfield, hf] at hi
    | some f => exact hview i f hf fun h => hi (by simp [hfield, hf, h])

/-- Where a condition listens to none of the reported fields, the forms agree on it. -/
theorem agree {spec : Spec} (h : Reports form form' changed)
    (hno : ∀ c ∈ changed, c ∉ form.pick spec.trigger) : Agree form form' spec := by
  refine ⟨h.toSameIds, fun i hi => ?_⟩
  refine Decidable.not_not.1 fun hview => ?_
  obtain ⟨c, hc, hid⟩ := h.view i hview
  exact hno c hc (mem_pick_trigger_of_ids hi hid)

end Reports

/-! ## Effects and writes -/

/-- A change of one field leaves the others as they are. -/
theorem field?_modify (form : Form) (h i : Handle) (g : FieldState → FieldState) :
    (form.modify h g).field? i = (form.field? i).map fun f => if h = i then g f else f := by
  simp only [field?, modify, List.getElem?_modify]
  by_cases hi : h = i <;> simp [hi]

/-- The other buttons of the group are unchecked. -/
theorem field?_uncheckOthers (form : Form) (h i : Handle) (id : String) :
    (form.uncheckOthers h id).field? i = (form.field? i).map fun f =>
      if i != h && f.kind == .radio && f.id == id then { f with checked := false } else f := by
  simp only [field?, uncheckOthers, List.getElem?_mapIdx]

/-- A field is valid unless it is required and nobody has answered it. -/
theorem field?_refresh (form : Form) (i : Handle) :
    form.refresh.field? i = (form.field? i).map fun f =>
      { f with valid := !f.required || isAnswered form.fields f } := by
  simp only [field?, refresh, List.getElem?_map]

/-- Validity is not in view. -/
theorem reports_refresh (form : Form) : Reports form form.refresh [] :=
  .of_field rfl (field?_refresh form) (fun _ _ => rfl) fun _ _ _ h => absurd rfl h

/-- A change of one field is reported if the field looks different. -/
theorem reports_modify (form : Form) (h : Handle) {g : FieldState → FieldState}
    {changed : List Handle} (hid : ∀ f, (g f).id = f.id)
    (hview : ∀ f, form.field? h = some f → (g f).view ≠ f.view → h ∈ changed) :
    Reports form (form.modify h g) changed := by
  refine .of_field (g := fun i f => if h = i then g f else f) rfl (field?_modify form h · g)
    (fun i f => by split <;> simp [hid]) fun i f hf hv => ?_
  by_cases hi : h = i
  · subst hi
    simp only [if_true] at hv
    exact ⟨h, hview f hf hv, by rw [getElem?_ids, hf]; rfl⟩
  · simp [hi] at hv

/-- Unchecking the rest of a group is reported by reporting the button. -/
theorem reports_uncheckOthers (form : Form) {h : Handle} {f : FieldState}
    (hf : form.field? h = some f) : Reports form (form.uncheckOthers h f.id) [h] := by
  refine .of_field rfl (field?_uncheckOthers form h · f.id) (fun i g => ?_) fun i g _ hv => ?_
  · split <;> rfl
  · split at hv
    · next hcond =>
      refine ⟨h, List.mem_singleton_self h, ?_⟩
      have hid : g.id = f.id := beq_iff_eq.1 (Bool.and_eq_true_iff.1 hcond).2
      rw [getElem?_ids, hf, Option.map_some, hid]
    · exact absurd rfl hv

/-- Effects keep ids. -/
theorem Effect.id_put (e : Effect) (on : Bool) (f : FieldState) : (e.put on f).id = f.id := by
  cases e with
  | checked =>
    simp only [Effect.put]
    split <;> rfl
  | _ => rfl

/-- Of the effects, only the checked state and the choice of options are in view. -/
theorem Effect.view_put (e : Effect) (on : Bool) (f : FieldState)
    (hv : (e.put on f).view ≠ f.view) : e.isCheck f = true := by
  cases e with
  | checked =>
    by_cases hf : f.kind.isCheckable = true
    · simp [Effect.isCheck, hf]
    · simp [Effect.put, hf] at hv
  | _ => exact absurd rfl hv

/-- An effect on one field reports it if its state changes. -/
theorem reports_applyOne (form : Form) (e : Effect) (s : Switch) (h : Handle) :
    Reports form (form.applyOne e s h).1 (if (form.applyOne e s h).2 then [h] else []) := by
  unfold applyOne
  cases hf : form.field? h with
  | none => exact .refl form _
  | some f =>
    dsimp only
    split
    · exact .refl form _
    · next hne =>
      have hput : Reports form (form.modify h (e.put (s.next (e.holds f))))
          (if e.isCheck f then [h] else []) := by
        refine reports_modify form h (Effect.id_put e _) fun g hg hv => ?_
        obtain rfl := Option.some.inj (hf.symm.trans hg)
        simp [Effect.view_put e _ f hv]
      dsimp only [switchField]
      split
      · next hradio =>
        obtain ⟨rfl, -, hkind⟩ := hradio
        have hfield : (form.modify h (Effect.checked.put (s.next (Effect.checked.holds f)))).field? h =
            some (Effect.checked.put (s.next (Effect.checked.holds f)) f) := by
          simp [field?_modify, hf]
        have hother := reports_uncheckOthers _ hfield
        rw [Effect.id_put] at hother
        exact (hput.trans hother).mono (by simp [Effect.isCheck, hkind, FieldKind.isCheckable])
      · exact hput

/-- An operation on one handle after the other reports what each of them does. -/
theorem reports_applyEach {op : Form → Handle → Form × Bool}
    (hop : ∀ form h, Reports form (op form h).1 (if (op form h).2 then [h] else []))
    (form : Form) (hs : List Handle) :
    Reports form (applyEach op form hs).1 (applyEach op form hs).2 := by
  induction hs generalizing form with
  | nil => exact .refl form _
  | cons h hs ih =>
    have hreports := (hop form h).trans (ih (op form h).1)
    refine hreports.mono ?_
    dsimp only [applyEach]
    split <;> simp_all

/-- Only addressed fields are reported. -/
theorem applyEach_subset {op : Form → Handle → Form × Bool} (form : Form) (hs : List Handle) :
    (applyEach op form hs).2 ⊆ hs := by
  induction hs generalizing form with
  | nil => simp [applyEach]
  | cons h hs ih =>
    dsimp only [applyEach]
    split
    · exact List.cons_subset_cons h (ih _)
    · exact List.subset_cons_of_subset h (ih _)

/-- Every effect reports the groups in which it changes what conditions see, except for the choice of
options: moving a selection is not reported. -/
theorem reports_apply (form : Form) (hs : List Handle) {e : Effect} (he : e ≠ .optionVisible)
    (s : Switch) : Reports form (form.apply hs e s).1 (form.apply hs e s).2 := by
  have heach := reports_applyEach (fun form h => reports_applyOne form e s h) form hs
  have hreports := heach.trans (reports_refresh _)
  simpa [apply, he] using hreports

/-- Moving a selection keeps ids. -/
theorem sameIds_repairOne (form : Form) (h : Handle) : SameIds form (form.repairOne h) := by
  have hmodify : ∀ (form : Form) (h : Handle) (b : Bool),
      SameIds form (form.modify h fun f => { f with checked := b }) := by
    intro form h b
    have hreports : Reports form (form.modify h fun f => { f with checked := b }) [h] :=
      reports_modify form h (fun _ => rfl) fun _ _ _ => List.mem_singleton_self h
    exact hreports.toSameIds
  unfold repairOne
  split
  · exact .refl form
  · split
    · dsimp only
      split
      · exact (hmodify form h false).trans (hmodify _ _ true)
      · exact hmodify form h false
    · exact .refl form

theorem sameIds_repairSelection (form : Form) (hs : List Handle) :
    SameIds form (form.repairSelection hs) := by
  unfold repairSelection
  induction hs generalizing form with
  | nil => exact .refl form
  | cons h hs ih => exact (sameIds_repairOne form h).trans (ih _)

/-- No effect adds, removes or renames fields. -/
theorem sameIds_apply (form : Form) (hs : List Handle) (e : Effect) (s : Switch) :
    SameIds form (form.apply hs e s).1 := by
  have heach := (reports_applyEach (fun form h => reports_applyOne form e s h) form hs).toSameIds
  unfold apply
  dsimp only
  split
  · exact (heach.trans (sameIds_repairSelection _ hs)).trans (reports_refresh _).toSameIds
  · exact heach.trans (reports_refresh _).toSameIds

/-- A write to one field reports it if it changes. -/
theorem reports_writeOne (v : Value) (form : Form) (h : Handle) :
    Reports form (writeOne v form h).1 (if (writeOne v form h).2 then [h] else []) := by
  unfold writeOne
  cases hf : form.field? h with
  | none => exact .refl form _
  | some f =>
    dsimp only
    split
    · split
      · next s _ =>
        refine (reports_apply form [h] (by simp) s).mono fun c hc => ?_
        have hmem : c ∈ [h] := by
          have hsubset : (applyEach (fun form h => form.applyOne .checked s h) form [h]).2 ⊆ [h] :=
            applyEach_subset form [h]
          refine hsubset ?_
          simpa [apply] using hc
        have hne : (form.apply [h] .checked s).2.isEmpty = false := by
          cases hchanged : (form.apply [h] .checked s).2 with
          | nil => simp [hchanged] at hc
          | cons _ _ => rfl
        simpa [hne] using hmem
      · exact .refl form _
    · split
      · exact .refl form _
      · exact reports_modify form h (fun _ => rfl) fun _ _ _ => List.mem_singleton_self h

/-- A write reports the groups in which it changes what conditions see. -/
theorem reports_write (form : Form) (hs : List Handle) (v : Value) :
    Reports form (form.write hs v).1 (form.write hs v).2 := by
  have hreports := (reports_applyEach (reports_writeOne v) form hs).trans (reports_refresh _)
  simpa [write] using hreports

end Form

end FormRules
