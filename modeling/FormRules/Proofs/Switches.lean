import FormRules.Proofs.Defaults

/-!
# Actions that set and unset

Ten pairs of built-in actions are each other's opposite: one sets what the other unsets
(`BuiltinAction.opposites`). The usual affix rules find the partner of each of these names, whatever
was looked up before (`Resolver.paired_resolve`), and an action and its partner differ in nothing
but the switch (`BuiltinAction.switches_flip`).

What such an action does to a form is said field by field (`Form.shows`): it brings one property of
the addressed fields to the wanted state and leaves all else (`Form.shows_apply`). This needs a
form without choices, since checking a radio button unchecks others (`Form.IsPlain`).
-/

namespace FormRules

/-! ## Opposite names -/

namespace BuiltinAction

/-- The actions that set a property, each with the one that unsets it, or the other way around. -/
def opposites : List (String × String) :=
  [("show", "hide"), ("showElement", "hideElement"), ("fadeIn", "fadeOut"), ("slideDown", "slideUp"),
    ("enable", "disable"), ("addClass", "removeClass"), ("showCollapse", "hideCollapse"),
    ("setRequired", "unsetRequired"), ("setReadonly", "unsetReadonly"),
    ("setChecked", "unsetChecked")]

/-- The names of these actions. -/
def switchNames : List String := opposites.flatMap fun p => [p.1, p.2]

/-- The partner of a name. -/
def partner? (name : String) : Option String :=
  (opposites ++ opposites.map Prod.swap).lookup name

/-- The action with the other switch. -/
def flip : BuiltinAction → BuiltinAction
  | effect e (.fixed s) => effect e (.fixed (.ofBool (s == .unset)))
  | classed (.fixed s) index => classed (.fixed (.ofBool (s == .unset))) index
  | collapse (.fixed s) => collapse (.fixed (.ofBool (s == .unset)))
  | required (.fixed s) => required (.fixed (.ofBool (s == .unset)))
  | a => a

/-- Whether the action always sets, or always unsets, a property that shows. -/
def isSwitch : BuiltinAction → Bool
  | effect e (.fixed s) => e != .optionVisible && s != .toggle
  | classed (.fixed s) _ | collapse (.fixed s) | required (.fixed s) => s != .toggle
  | _ => false

/-- Each of the names has a partner among them, and the action of the partner is the opposite one.
-/
theorem partner_lookup : ∀ name ∈ switchNames, ∃ b a, partner? name = some b ∧
    b ∈ switchNames ∧ all.lookup name = some a ∧ a.isSwitch = true ∧ all.lookup b = some a.flip := by
  have hall : ∀ name ∈ switchNames, (partner? name).any (fun b => decide (b ∈ switchNames) &&
      (all.lookup name).any fun a => a.isSwitch && decide (all.lookup b = some a.flip)) = true := by
    decide +kernel
  intro name hname
  obtain ⟨b, hb, h⟩ := (Option.any_eq_true _ _).1 (hall name hname)
  rw [Bool.and_eq_true, decide_eq_true_eq] at h
  obtain ⟨a, ha, h'⟩ := (Option.any_eq_true _ _).1 h.2
  rw [Bool.and_eq_true, decide_eq_true_eq] at h'
  exact ⟨b, a, hb, h.1, ha, h'.1, h'.2⟩

end BuiltinAction

set_option maxRecDepth 100000 in
/-- The first candidate for the opposite of such a name that is an action is its partner. -/
theorem AffixRules.find?_candidates : ∀ name ∈ BuiltinAction.switchNames,
    (AffixRules.standard.candidates name).find? Config.builtin.actions.contains =
      BuiltinAction.partner? name := by
  decide +kernel

set_option maxRecDepth 100000 in
/-- The built-in configuration has the built-in actions under these names. -/
theorem Config.get?_builtin : ∀ name ∈ BuiltinAction.switchNames,
    Config.builtin.actions.get? name = (BuiltinAction.all.lookup name).map .builtin := by
  intro name hname
  simp only [BuiltinAction.switchNames, BuiltinAction.opposites, List.flatMap_cons,
    List.flatMap_nil, List.cons_append, List.nil_append, List.mem_cons, List.not_mem_nil,
    or_false] at hname
  rcases hname with h | h | h | h | h | h | h | h | h | h | h | h | h | h | h | h | h | h | h | h
  all_goals
    subst h
    rfl

namespace Resolver

/-- The resolver knows partners only, and has the usual rules for others. -/
structure IsPaired (r : Resolver) : Prop where
  rules : r.rules = .standard
  partners : ∀ p ∈ r.partners, BuiltinAction.partner? p.1 = some p.2

/-- What a paired resolver has stored of a name is its partner. -/
theorem known_of_paired {r : Resolver} (h : r.IsPaired) {a b : String} (hk : r.known a = some b) :
    BuiltinAction.partner? a = some b := by
  obtain ⟨hlookup, -⟩ := Option.filter_eq_some_iff.1 hk
  obtain ⟨l₁, l₂, heq, -⟩ := List.lookup_eq_some_iff.1 hlookup
  exact h.partners (a, b) (by simp [heq])

/-- Partners are partners of each other. -/
theorem partner_symm : ∀ a ∈ BuiltinAction.switchNames, ∀ b, BuiltinAction.partner? a = some b →
    BuiltinAction.partner? b = some a := by
  have hall : ∀ a ∈ BuiltinAction.switchNames,
      (BuiltinAction.partner? a).all (fun b => BuiltinAction.partner? b = some a) = true := by
    decide +kernel
  intro a ha b hb
  have h := hall a ha
  rw [hb] at h
  simpa using h

/-- The opposite of a name is its partner, whatever was looked up before. -/
theorem paired_resolve {r : Resolver} (h : r.IsPaired) {name : String}
    (hname : name ∈ BuiltinAction.switchNames) :
    (r.resolve name Config.builtin.actions.contains).1 = BuiltinAction.partner? name ∧
      (r.resolve name Config.builtin.actions.contains).2.1.IsPaired := by
  rw [resolve_eq]
  cases hk : r.known name with
  | some b => exact ⟨(known_of_paired h hk).symm, h⟩
  | none =>
    obtain ⟨b, a, hb, -⟩ := BuiltinAction.partner_lookup name hname
    have hfind := AffixRules.find?_candidates name hname
    rw [hb] at hfind
    simp only [h.rules, hfind, hb, true_and]
    refine ⟨rfl, fun p hp => ?_⟩
    simp only [register, List.mem_cons] at hp
    rcases hp with rfl | rfl | hp
    · exact partner_symm name hname b hb
    · exact hb
    · exact h.partners p hp

/-- A new host has stored no opposites that are not partners. -/
theorem isPaired_new (form : Form) (watched : Bool) :
    (Host.new Config.builtin form watched).resolver.IsPaired := by
  obtain ⟨-, hconfig⟩ := Draft.build_eq_ok_iff.1 Draft.build_withDefaults
  simp only [Host.new, hconfig, Draft.merger, Draft.withDefaults, List.foldl_nil]
  exact ⟨rfl, by simp⟩

end Resolver

/-! ## What an action sets and unsets -/

/-- The property that an operation sets or unsets, and which of the two. -/
def Operation.switch? : Operation → Option (Effect × Bool)
  | .effect _ e .set => some (e, true)
  | .effect _ e .unset => some (e, false)
  | _ => none

namespace BuiltinAction

/-- The properties that an action sets or unsets, under the usual class names. -/
def switches (args : Args) (a : BuiltinAction) : List (Effect × Bool) :=
  (a.plan {} args).filterMap Operation.switch?

/-- The properties that the action of a name sets or unsets. -/
def switchesOf (name : String) (args : Args) : List (Effect × Bool) :=
  ((all.lookup name).map (switches args)).getD []

variable {a : BuiltinAction} {args : Args} {e : Effect} {on : Bool}

/-- Besides notes, an action that sets or unsets does nothing else. -/
theorem mem_plan (h : a.isSwitch = true) {classes : ClassNames} {operation : Operation}
    (hmem : operation ∈ a.plan classes args) : (∃ d, operation = .note d) ∨
      ∃ e on, operation = .effect args.field e (.ofBool on) ∧ e ≠ .optionVisible := by
  have hswitch : ∀ s : Switch, (s != .toggle) = true → ∃ on, s = .ofBool on := by
    rintro (_ | _ | _) hs
    · exact ⟨true, rfl⟩
    · exact ⟨false, rfl⟩
    · simp at hs
  cases a with
  | effect e source =>
    cases source with
    | argument => simp [isSwitch] at h
    | fixed s =>
      simp only [isSwitch, Bool.and_eq_true, bne_iff_ne, ne_eq] at h
      obtain ⟨on, rfl⟩ := hswitch s (by simpa using h.2)
      exact Or.inr ⟨e, on, by simpa [plan, SwitchSource.read] using hmem, h.1⟩
  | classed source index =>
    cases source with
    | argument => simp [isSwitch] at h
    | fixed s =>
      obtain ⟨on, rfl⟩ := hswitch s h
      simp only [plan] at hmem
      split at hmem
      · exact Or.inl ⟨_, List.mem_singleton.1 hmem⟩
      · exact Or.inr ⟨_, on, List.mem_singleton.1 hmem, by simp⟩
  | collapse source =>
    cases source with
    | argument => simp [isSwitch] at h
    | fixed s =>
      obtain ⟨on, rfl⟩ := hswitch s h
      simp only [plan] at hmem
      split at hmem
      · simp at hmem
      · exact Or.inr ⟨_, on, List.mem_singleton.1 hmem, by simp⟩
  | required source =>
    cases source with
    | argument => simp [isSwitch] at h
    | fixed s =>
      obtain ⟨on, rfl⟩ := hswitch s h
      simp only [plan, List.mem_cons] at hmem
      rcases hmem with rfl | hmem
      · exact Or.inr ⟨_, on, rfl, by simp⟩
      · split at hmem
        · simp at hmem
        · exact Or.inr ⟨_, on, List.mem_singleton.1 hmem, by simp⟩
  | write => simp [isSwitch] at h

theorem switch?_ofBool (field : String) (e : Effect) (on : Bool) :
    (Operation.effect field e (.ofBool on)).switch? = some (e, on) := by
  cases on <;> rfl

/-- What an action sets or unsets are the effects of its plan. -/
theorem mem_switches (h : a.isSwitch = true) : (e, on) ∈ a.switches args ↔
    .effect args.field e (.ofBool on) ∈ a.plan {} args := by
  rw [switches, List.mem_filterMap]
  constructor
  · rintro ⟨operation, hmem, hswitch⟩
    rcases mem_plan h hmem with ⟨d, rfl⟩ | ⟨e', on', rfl, -⟩
    · simp [Operation.switch?] at hswitch
    · rw [switch?_ofBool] at hswitch
      obtain ⟨rfl, rfl⟩ := Prod.mk.inj (Option.some.inj hswitch)
      exact hmem
  · exact fun hmem => ⟨_, hmem, switch?_ofBool _ e on⟩

/-- Switches leave the visibility of options alone. -/
theorem ne_optionVisible_of_mem_switches (h : a.isSwitch = true)
    (hmem : (e, on) ∈ a.switches args) : e ≠ .optionVisible := by
  rcases mem_plan h ((mem_switches h).1 hmem) with ⟨d, hd⟩ | ⟨e', on', heq, hne⟩
  · simp at hd
  · simp only [Operation.effect.injEq, true_and] at heq
    exact heq.1 ▸ hne

/-- An action that sets one property unsets no other. -/
theorem switches_unique (a : BuiltinAction) {e' : Effect} {on' : Bool}
    (hmem : (e, on) ∈ a.switches args) (hmem' : (e', on') ∈ a.switches args) : on = on' := by
  obtain ⟨operation, hplan, hswitch⟩ := List.mem_filterMap.1 hmem
  obtain ⟨operation', hplan', hswitch'⟩ := List.mem_filterMap.1 hmem'
  have hsame : ∀ (x x' : Effect) (field : String) (s : Switch),
      (Operation.effect field x s).switch? = some (e, on) →
      (Operation.effect field x' s).switch? = some (e', on') → on = on' := by
    rintro x x' field (_ | _ | _) h h'
    · exact (Prod.mk.inj (Option.some.inj h)).2.symm.trans (Prod.mk.inj (Option.some.inj h')).2
    · exact (Prod.mk.inj (Option.some.inj h)).2.symm.trans (Prod.mk.inj (Option.some.inj h')).2
    · simp [Operation.switch?] at h
  cases a with
  | effect x source =>
    obtain rfl := List.mem_singleton.1 hplan
    obtain rfl := List.mem_singleton.1 hplan'
    exact hsame _ _ _ _ hswitch hswitch'
  | classed source index =>
    simp only [plan] at hplan hplan'
    split at hplan
    · obtain rfl := List.mem_singleton.1 hplan
      simp [Operation.switch?] at hswitch
    · next hname =>
      rw [if_neg hname] at hplan'
      obtain rfl := List.mem_singleton.1 hplan
      obtain rfl := List.mem_singleton.1 hplan'
      exact hsame _ _ _ _ hswitch hswitch'
  | collapse source =>
    simp only [plan, if_neg (show ({} : ClassNames).collapseShow ≠ "" by decide)] at hplan hplan'
    obtain rfl := List.mem_singleton.1 hplan
    obtain rfl := List.mem_singleton.1 hplan'
    exact hsame _ _ _ _ hswitch hswitch'
  | required source =>
    simp only [plan, if_neg (show ({} : ClassNames).requiredIndicator ≠ "" by decide), List.mem_cons,
      List.not_mem_nil, or_false] at hplan hplan'
    rcases hplan with rfl | rfl <;> rcases hplan' with rfl | rfl <;>
      exact hsame _ _ _ _ hswitch hswitch'
  | write =>
    simp only [plan] at hplan
    split at hplan
    · obtain rfl := List.mem_singleton.1 hplan
      simp [Operation.switch?] at hswitch
    · simp at hplan

/-- An action that checks does nothing else. -/
theorem pairwise_plan (a : BuiltinAction) (args : Args) :
    (a.plan {} args).Pairwise fun o _ => ∀ field s, o ≠ .effect field .checked s := by
  cases a with
  | classed source index =>
    simp only [plan]
    split <;> simp
  | write =>
    simp only [plan]
    split <;> simp
  | _ => simp [plan]

/-- The operation with the other switch. -/
def flipOperation : Operation → Operation
  | .effect field e s => .effect field e (.ofBool (s == .unset))
  | o => o

/-- An action and its opposite differ in the switch only. -/
theorem plan_flip (h : a.isSwitch = true) (classes : ClassNames) (args : Args) :
    a.flip.plan classes args = (a.plan classes args).map flipOperation := by
  cases a with
  | effect e source =>
    cases source with
    | argument => simp [isSwitch] at h
    | fixed s => rfl
  | classed source index =>
    cases source with
    | argument => simp [isSwitch] at h
    | fixed s =>
      simp only [flip, plan]
      split <;> rfl
  | collapse source =>
    cases source with
    | argument => simp [isSwitch] at h
    | fixed s =>
      simp only [flip, plan]
      split <;> rfl
  | required source =>
    cases source with
    | argument => simp [isSwitch] at h
    | fixed s =>
      simp only [flip, plan]
      split <;> rfl
  | write => simp [isSwitch] at h

theorem isSwitch_flip (h : a.isSwitch = true) : a.flip.isSwitch = true := by
  have hne : ∀ s : Switch, (Switch.ofBool (s == .unset) != .toggle) = true := by
    rintro (_ | _ | _) <;> rfl
  cases a with
  | effect e source =>
    cases source with
    | argument => simp [isSwitch] at h
    | fixed s =>
      simp only [isSwitch, Bool.and_eq_true] at h
      simp only [flip, isSwitch, h.1, hne, Bool.and_self]
  | classed source index | collapse source | required source =>
    cases source with
    | argument => simp [isSwitch] at h
    | fixed s => exact hne s
  | write => simp [isSwitch] at h

/-- What an action sets its opposite unsets, and the other way round. -/
theorem switches_flip (h : a.isSwitch = true) :
    (e, on) ∈ a.flip.switches args ↔ (e, !on) ∈ a.switches args := by
  have hof : ∀ on, Switch.ofBool (Switch.ofBool on == .unset) = .ofBool !on := by
    rintro (_ | _) <;> rfl
  rw [mem_switches (isSwitch_flip h), mem_switches h, plan_flip h, List.mem_map]
  constructor
  · rintro ⟨operation, hmem, heq⟩
    rcases mem_plan h hmem with ⟨d, rfl⟩ | ⟨e', on', rfl, -⟩
    · simp [flipOperation] at heq
    · simp only [flipOperation, hof, Operation.effect.injEq, true_and] at heq
      obtain ⟨rfl, hon⟩ := heq
      have hon' : on = !on' := by
        cases on <;> cases on' <;> simp_all [Switch.ofBool]
      rw [hon', Bool.not_not]
      exact hmem
  · intro hmem
    exact ⟨_, hmem, by rw [flipOperation, hof, Bool.not_not]⟩

end BuiltinAction

/-! ## What shows of a form -/

/-- Whether a property of a field holds; a form without choices shows its effects like this. -/
def Form.shows (form : Form) (h : Handle) (e : Effect) : Option Bool := (form.field? h).map e.holds

/-- The kinds of the fields. -/
def Form.kinds (form : Form) : List FieldKind := form.fields.map FieldState.kind

/-- Whether there are no choices: all fields are texts and checkboxes. -/
def Form.IsPlain (form : Form) : Prop := ∀ k ∈ form.kinds, k.isChoice = false

namespace Effect

/-- An effect that is put in place holds. -/
theorem holds_put {e : Effect} (he : e ≠ .optionVisible) {f : FieldState}
    (hf : e = .checked → f.kind.isCheckable = true) (on : Bool) : e.holds (e.put on f) = on := by
  cases e with
  | checked => simp [holds, put, hf rfl]
  | optionVisible => exact absurd rfl he
  | classed name => cases on <;> simp [holds, put, FieldState.hasClass]
  | _ => rfl

/-- An effect leaves the others as they are. -/
theorem holds_put_of_ne {e e' : Effect} (he : e ≠ .optionVisible) (he' : e' ≠ .optionVisible)
    (hne : e' ≠ e) (on : Bool) (f : FieldState) : e'.holds (e.put on f) = e'.holds f := by
  cases e with
  | optionVisible => exact absurd rfl he
  | checked =>
    simp only [put]
    split
    · cases e' <;> simp_all [holds, FieldState.hasClass]
    · rfl
  | classed name =>
    cases e' with
    | classed name' =>
      have hname : name' ≠ name := fun h => hne (h ▸ rfl)
      cases on <;> simp [holds, put, FieldState.hasClass, hname]
    | optionVisible => exact absurd rfl he'
    | _ => rfl
  | _ => cases e' <;> simp_all [holds, put, FieldState.hasClass]

theorem kind_put (e : Effect) (on : Bool) (f : FieldState) : (e.put on f).kind = f.kind := by
  cases e with
  | checked =>
    simp only [put]
    split <;> rfl
  | _ => rfl

end Effect

namespace Form

theorem IsPlain.field {form : Form} (h : form.IsPlain) {i : Handle} {f : FieldState}
    (hf : form.field? i = some f) : f.kind.isChoice = false :=
  h f.kind (List.mem_map_of_mem (List.mem_of_getElem? hf))

/-- Whether a form is without choices depends on the kinds of its fields. -/
theorem IsPlain.of_kinds {form form' : Form} (h : form.IsPlain) (hkinds : form'.kinds = form.kinds) :
    form'.IsPlain := fun k hk => h k (hkinds ▸ hk)

/-- Whether the field behind a handle can be checked. -/
def isBox (form : Form) (h : Handle) : Prop := ∀ k, form.kinds[h]? = some k → k.isCheckable = true

/-- Kinds stay if they do field by field. -/
theorem kinds_eq {form form' : Form}
    (h : ∀ i, (form'.field? i).map FieldState.kind = (form.field? i).map FieldState.kind) :
    form'.kinds = form.kinds :=
  List.ext_getElem? fun i => by simpa [kinds, field?] using h i

theorem kinds_refresh (form : Form) : form.refresh.kinds = form.kinds := by
  simp [kinds, refresh, Function.comp_def]

/-- Validity is not among the properties that show. -/
theorem shows_refresh (form : Form) (i : Handle) (e : Effect) :
    form.refresh.shows i e = form.shows i e := by
  rw [shows, shows, field?_refresh, Option.map_map]
  congr 1

theorem kinds_modify (form : Form) (h : Handle) {g : FieldState → FieldState}
    (hg : ∀ f, (g f).kind = f.kind) : (form.modify h g).kinds = form.kinds := by
  refine kinds_eq fun i => ?_
  rw [field?_modify, Option.map_map]
  cases form.field? i with
  | none => rfl
  | some f => by_cases hi : h = i <;> simp [hi, hg]

/-- A change of one field does not show at another. -/
theorem shows_modify_of_ne (form : Form) {h i : Handle} (hi : h ≠ i) (g : FieldState → FieldState)
    (e : Effect) : (form.modify h g).shows i e = form.shows i e := by
  simp [shows, field?_modify, hi]

/-! ### Effects -/

/-- Without choices, an effect on one field touches no other. -/
theorem applyOne_eq {form : Form} (hplain : form.IsPlain) (e : Effect) (on : Bool) {h : Handle}
    {f : FieldState} (hf : form.field? h = some f) :
    (form.applyOne e (.ofBool on) h).1 =
      if e.holds f = on then form else form.modify h (e.put on) := by
  have hnext : (Switch.ofBool on).next (e.holds f) = on := by cases on <;> rfl
  have hradio : f.kind ≠ .radio := by
    intro hkind
    have hchoice := hplain.field hf
    rw [hkind] at hchoice
    exact Bool.noConfusion hchoice
  simp only [applyOne, hf, hnext, switchField, hradio, and_false, if_false]
  split <;> rfl

/-- An effect keeps kinds. -/
theorem kinds_applyOne {form : Form} (hplain : form.IsPlain) (e : Effect) (on : Bool) (h : Handle) :
    (form.applyOne e (.ofBool on) h).1.kinds = form.kinds := by
  cases hf : form.field? h with
  | none => simp [applyOne, hf]
  | some f =>
    rw [applyOne_eq hplain e on hf]
    split
    · rfl
    · exact kinds_modify form h (Effect.kind_put e on)

/-- An effect brings its property of one field to the wanted state, and no other property of any. -/
theorem shows_applyOne {form : Form} (hplain : form.IsPlain) {e e' : Effect}
    (he : e ≠ .optionVisible) (he' : e' ≠ .optionVisible) (on : Bool) {h : Handle}
    (hbox : e = .checked → form.isBox h) (i : Handle) :
    (form.applyOne e (.ofBool on) h).1.shows i e' =
      if i = h ∧ e' = e then (form.shows i e').map fun _ => on else form.shows i e' := by
  cases hf : form.field? h with
  | none =>
    split
    · next hkey =>
      obtain ⟨rfl, -⟩ := hkey
      simp [applyOne, shows, hf]
    · simp [applyOne, hf]
  | some f =>
    rw [applyOne_eq hplain e on hf]
    by_cases hi : i = h
    · subst hi
      have hkind : e = .checked → f.kind.isCheckable = true := fun hchecked =>
        hbox hchecked f.kind (by simpa [kinds, field?] using ⟨f, hf, rfl⟩)
      by_cases hkey : e' = e
      · subst hkey
        split
        · next hholds => simp [shows, hf, hholds]
        · simp [shows, field?_modify, hf, Effect.holds_put he hkind]
      · rw [if_neg fun h : i = i ∧ e' = e => hkey h.2]
        split
        · rfl
        · simp [shows, field?_modify, hf, Effect.holds_put_of_ne he he' hkey]
    · rw [if_neg fun h : i = _ ∧ e' = e => hi h.1]
      split
      · rfl
      · exact shows_modify_of_ne form (fun h => hi h.symm) _ e'

/-- Only checks are reported. -/
theorem applyOne_unreported (form : Form) {e : Effect} (he : e ≠ .checked) (s : Switch)
    (h : Handle) : (form.applyOne e s h).2 = false := by
  unfold applyOne
  split
  · rfl
  · dsimp only
    split
    · rfl
    · simp [Effect.isCheck, he]

/-- What is not reported of any field is not reported of a call. -/
theorem applyEach_unreported {op : Form → Handle → Form × Bool} (hop : ∀ form h, (op form h).2 = false)
    (form : Form) (hs : List Handle) : (applyEach op form hs).2 = [] := by
  induction hs generalizing form with
  | nil => rfl
  | cons h hs ih => simp [applyEach, hop, ih]

/-- A call keeps kinds if it does so at each field. -/
theorem kinds_applyEach {op : Form → Handle → Form × Bool}
    (hop : ∀ form h, form.IsPlain → (op form h).1.kinds = form.kinds) {form : Form}
    (hplain : form.IsPlain) (hs : List Handle) : (applyEach op form hs).1.kinds = form.kinds := by
  induction hs generalizing form with
  | nil => rfl
  | cons h hs ih =>
    have hkinds := hop form h hplain
    exact (ih (hplain.of_kinds hkinds)).trans hkinds

theorem kinds_apply {form : Form} (hplain : form.IsPlain) (hs : List Handle) {e : Effect}
    (he : e ≠ .optionVisible) (on : Bool) : (form.apply hs e (.ofBool on)).1.kinds = form.kinds := by
  simp only [apply, he, if_false, kinds_refresh]
  exact kinds_applyEach (fun _ h hp => kinds_applyOne hp e on h) hplain hs

/-- An effect brings one property of the addressed fields to the wanted state, and leaves all
else. -/
theorem shows_apply {form : Form} (hplain : form.IsPlain) {e e' : Effect}
    (he : e ≠ .optionVisible) (he' : e' ≠ .optionVisible) (on : Bool) {hs : List Handle}
    (hbox : e = .checked → ∀ h ∈ hs, form.isBox h) (i : Handle) :
    (form.apply hs e (.ofBool on)).1.shows i e' =
      if i ∈ hs ∧ e' = e then (form.shows i e').map fun _ => on else form.shows i e' := by
  simp only [apply, he, if_false, shows_refresh]
  induction hs generalizing form with
  | nil => simp [applyEach]
  | cons h hs ih =>
    have hkinds := kinds_applyOne hplain e on h
    have hbox' : e = .checked → ∀ x ∈ hs, (form.applyOne e (.ofBool on) h).1.isBox x := by
      intro hchecked x hx k hk
      exact hbox hchecked x (List.mem_cons_of_mem h hx) k (hkinds ▸ hk)
    have hfirst := shows_applyOne hplain he he' on
      (fun hchecked => hbox hchecked h List.mem_cons_self) i
    simp only [applyEach]
    rw [ih (hplain.of_kinds hkinds) hbox', hfirst]
    by_cases hkey : e' = e
    · by_cases hi : i = h
      · subst hi
        simp [hkey, Function.comp_def]
      · simp [hkey, hi]
    · simp [hkey]

/-- Only effects on the checked state are reported. -/
theorem apply_unreported (form : Form) (hs : List Handle) {e : Effect} (he : e ≠ .checked)
    (s : Switch) : (form.apply hs e s).2 = [] :=
  applyEach_unreported (fun form h => applyOne_unreported form he s h) form hs

/-! ### Writes -/

/-- A write sets or unsets a check, and never toggles it. -/
theorem writeSwitch?_eq_some {f : FieldState} {v : Value} {s : Switch}
    (h : writeSwitch? f v = some s) : ∃ on, s = .ofBool on := by
  unfold writeSwitch? at h
  split at h
  · exact ⟨_, (Option.some.inj h).symm⟩
  · split at h
    · exact ⟨true, (Option.some.inj h).symm⟩
    · simp at h

/-- A write keeps kinds. -/
theorem kinds_writeOne (v : Value) {form : Form} (hplain : form.IsPlain) (h : Handle) :
    (writeOne v form h).1.kinds = form.kinds := by
  unfold writeOne
  split
  · rfl
  · split
    · split
      · next s hs =>
        obtain ⟨on, rfl⟩ := writeSwitch?_eq_some hs
        exact kinds_apply hplain [h] (by simp) on
      · rfl
    · split
      · rfl
      · exact kinds_modify form h fun _ => rfl

theorem kinds_write {form : Form} (hplain : form.IsPlain) (hs : List Handle) (v : Value) :
    (form.write hs v).1.kinds = form.kinds := by
  simp only [write, kinds_refresh]
  exact kinds_applyEach (fun _ h hp => kinds_writeOne v hp h) hplain hs

/-- A write to one field shows in its check at most. -/
theorem shows_writeOne (v : Value) {form : Form} (hplain : form.IsPlain) {e : Effect}
    (he : e ≠ .optionVisible) {h i : Handle} (hi : e = .checked → i ≠ h) :
    (writeOne v form h).1.shows i e = form.shows i e := by
  unfold writeOne
  split
  · rfl
  · next f hf =>
    split
    · next hbox =>
      split
      · next s hs =>
        obtain ⟨on, rfl⟩ := writeSwitch?_eq_some hs
        have hisBox : ∀ x ∈ [h], form.isBox x := by
          intro x hx k hk
          rw [List.mem_singleton.1 hx, kinds, List.getElem?_map,
            show form.fields[h]? = some f from hf] at hk
          exact Option.some.inj hk ▸ hbox
        have hkey : ¬ (i ∈ [h] ∧ e = .checked) := fun hkey =>
          hi hkey.2 (List.mem_singleton.1 hkey.1)
        dsimp only
        rw [shows_apply hplain (by simp) he on (fun _ => hisBox) i, if_neg hkey]
      · rfl
    · split
      · rfl
      · have hvalue : ∀ g : FieldState, e.holds { g with value := v.asText } = e.holds g := by
          intro g
          cases e <;> rfl
        rw [shows, shows, field?_modify, Option.map_map]
        cases form.field? i with
        | none => rfl
        | some g => by_cases hh : h = i <;> simp [hh, hvalue]

/-- A write touches the checked state of the addressed fields, and no other property. -/
theorem shows_write (v : Value) {form : Form} (hplain : form.IsPlain) {e : Effect}
    (he : e ≠ .optionVisible) {hs : List Handle} {i : Handle} (hi : e = .checked → i ∉ hs) :
    (form.write hs v).1.shows i e = form.shows i e := by
  simp only [write, shows_refresh]
  induction hs generalizing form with
  | nil => rfl
  | cons h hs ih =>
    have hne : e = .checked → i ≠ h := fun hchecked heq => hi hchecked (by simp [heq])
    have hfirst := shows_writeOne v hplain he hne
    have hrest := ih (hplain.of_kinds (kinds_writeOne v hplain h)) fun hchecked hmem =>
      hi hchecked (List.mem_cons_of_mem h hmem)
    exact hrest.trans hfirst

end Form

end FormRules
