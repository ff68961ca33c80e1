import FormRules.Proofs.Changes
import FormRules.Proofs.Grammar

/-!
# Which fields an identifier stands for

A field can be meant by several selectors of one identifier, and by several values of one selector:
names may be given twice, the alias and the id of the form mean every field, and a value may be
repeated. It is found once all the same, at the first place where it is meant. `Form.rank` is that
place: the first selector that picks the field, the first of its values that the field has, and
last the document order. `Form.Resolves` says that a list holds exactly the fields that some selector
picks, each once and by rank, which leaves no choice about the list (`Form.Resolves.unique`);
`Engine.fields_resolved` says that the fields of an identifier are this list.

Both levels are unions of lists in turn, one for each selector and one for each value. So the order
is proved once, for the union of any lists (`Form.exists_unionHandles`): a handle that an earlier list
has comes before one that only later lists have.
-/

namespace FormRules

namespace Form

/-! ## The order of fields -/

/-- Whether the selector picks the field: its name is the alias of the form, the form's id or the
field's own, and the field's value is among its values, if it has any. -/
def isPicked (form : Form) (s : Selector) (h : Handle) : Bool :=
  (form.field? h).any fun f =>
    (s.name == formAlias || s.name == form.id || s.name == f.id) &&
      (s.values.isEmpty || s.values.contains f.value)

/-- The position of the field's value among those of the selector. -/
def valueIdx (form : Form) (s : Selector) (h : Handle) : Nat :=
  ((form.field? h).map fun f => s.values.idxOf f.value).getD 0

/-- The place of a field among those of an identifier: the first selector that picks it, the first
of the values of this selector that it has, and the field's handle. -/
def rank (form : Form) (ss : List Selector) (h : Handle) : Nat × Nat × Nat :=
  (ss.findIdx (form.isPicked · h),
    ((ss.find? (form.isPicked · h)).map (form.valueIdx · h)).getD 0, h)

/-- Earlier selectors come first, of one selector earlier values, and of one value earlier
fields. -/
def RankLt : Nat × Nat × Nat → Nat × Nat × Nat → Prop :=
  Prod.Lex (· < ·) (Prod.Lex (· < ·) (· < ·))

/-- The list of the fields that some selector picks, each once and by rank. -/
structure Resolves (form : Form) (ss : List Selector) (hs : List Handle) : Prop where
  nodup : hs.Nodup
  mem_iff : ∀ h, h ∈ hs ↔ ∃ s ∈ ss, form.isPicked s h = true
  ordered : hs.Pairwise fun a b => RankLt (form.rank ss a) (form.rank ss b)

/-! ## Unions in turn -/

section Union

variable {α : Type} {f : α → List Handle} {R : α → Handle → Handle → Prop} {xs : List α}
  {a b h : Handle}

/-- Which of two handles the lists name first: an earlier list decides, and if it has both, its own
order does. -/
def FoundFirst (f : α → List Handle) (R : α → Handle → Handle → Prop) :
    List α → Handle → Handle → Prop
  | [], _, _ => False
  | x :: xs, a, b => if a ∈ f x then b ∈ f x → R x a b else b ∉ f x ∧ FoundFirst f R xs a b

/-- A union of lists in turn appends what some list has and was not known, in the order in which
the lists name it. -/
theorem exists_unionHandles (f : α → List Handle) (R : α → Handle → Handle → Prop) (xs : List α)
    (hnodup : ∀ x ∈ xs, (f x).Nodup) (hordered : ∀ x ∈ xs, (f x).Pairwise (R x))
    (known : List Handle) :
    ∃ rest, xs.foldl (fun found x => unionHandles found (f x)) known = known ++ rest ∧
      rest.Nodup ∧ rest.Pairwise (FoundFirst f R xs) ∧
      ∀ h, h ∈ rest ↔ h ∉ known ∧ ∃ x ∈ xs, h ∈ f x := by
  induction xs generalizing known with
  | nil => exact ⟨[], by simp⟩
  | cons x xs ih =>
    obtain ⟨hx, hxs⟩ := List.forall_mem_cons.1 hnodup
    obtain ⟨hRx, hRxs⟩ := List.forall_mem_cons.1 hordered
    obtain ⟨rest, hfold, hrest, hpairwise, hmem⟩ := ih hxs hRxs (unionHandles known (f x))
    set first := (f x).filter fun h => !known.contains h with hfirst
    have hunion : unionHandles known (f x) = known ++ first := unionHandles_eq_filter known hx
    have hmemfirst : ∀ h, h ∈ first ↔ h ∈ f x ∧ h ∉ known := by simp [hfirst]
    have hfar : ∀ h ∈ rest, h ∉ f x := fun h hh hfx => by
      have hnot := ((hmem h).1 hh).1
      by_cases hknown : h ∈ known
      · exact hnot (by simp [hunion, hknown])
      · exact hnot (by simp [hunion, (hmemfirst h).2 ⟨hfx, hknown⟩])
    refine ⟨first ++ rest, ?_, ?_, ?_, fun h => ?_⟩
    · rw [List.foldl_cons, hfold, hunion, List.append_assoc]
    · refine List.nodup_append.2 ⟨hx.filter _, hrest, ?_⟩
      rintro a ha b hb rfl
      exact hfar a hb ((hmemfirst a).1 ha).1
    · refine List.pairwise_append.2 ⟨?_, ?_, ?_⟩
      · refine ((hRx.filter _).imp_of_mem fun {a b} ha hb hR => ?_)
        rw [FoundFirst, if_pos ((hmemfirst a).1 ha).1]
        exact fun _ => hR
      · refine hpairwise.imp_of_mem fun {a b} ha hb hR => ?_
        rw [FoundFirst, if_neg (hfar a ha)]
        exact ⟨hfar b hb, hR⟩
      · intro a ha b hb
        rw [FoundFirst, if_pos ((hmemfirst a).1 ha).1]
        exact fun hfx => absurd hfx (hfar b hb)
    · rw [List.mem_append, hmemfirst, hmem, hunion, List.mem_append, hmemfirst]
      simp only [List.mem_cons, exists_eq_or_imp]
      tauto

/-- In numbers: the first list that has the one is before the first that has the other, or it is one
list and its own order decides. -/
theorem FoundFirst.findIdx_lt_or (hab : FoundFirst f R xs a b) :
    xs.findIdx (fun x => a ∈ f x) < xs.findIdx (fun x => b ∈ f x) ∨
      xs.findIdx (fun x => a ∈ f x) = xs.findIdx (fun x => b ∈ f x) ∧
        ∃ x, xs.find? (fun x => a ∈ f x) = some x ∧ xs.find? (fun x => b ∈ f x) = some x ∧
          R x a b := by
  induction xs with
  | nil => exact hab.elim
  | cons x xs ih =>
    rw [FoundFirst] at hab
    split at hab
    · next ha =>
      by_cases hb : b ∈ f x
      · exact Or.inr ⟨by simp [List.findIdx_cons, ha, hb], x, by simp [ha], by simp [hb], hab hb⟩
      · exact Or.inl (by simp [List.findIdx_cons, ha, hb])
    · next ha =>
      obtain ⟨hb, hab⟩ := hab
      simpa [List.findIdx_cons, ha, hb] using ih hab

end Union

/-! ## Selectors -/

variable {form : Form} {s : Selector} {ss : List Selector} {h a b : Handle}

theorem nodup_handlesWhere (p : FieldState → Bool) : (form.handlesWhere p).Nodup :=
  List.nodup_range.filter _

theorem pairwise_handlesWhere (p : FieldState → Bool) : (form.handlesWhere p).Pairwise (· < ·) :=
  List.pairwise_lt_range.filter _

theorem isPicked_iff : form.isPicked s h = true ↔ ∃ f, form.field? h = some f ∧
    form.isNamed s.name f = true ∧ (s.values = [] ∨ f.value ∈ s.values) := by
  rw [isPicked, Option.any_eq_true]
  refine exists_congr fun f => and_congr_right fun _ => ?_
  simp [isNamed, @eq_comm _ f.id]

theorem mem_resolve_iff : h ∈ form.resolve s ↔ form.isPicked s h = true := by
  rw [isPicked_iff, resolve]
  split
  · next hvalues => simp [hvalues, mem_handlesWhere]
  · next hvalues =>
    simp only [mem_foldl_unionHandles, mem_handlesWhere, Bool.and_eq_true, beq_iff_eq,
      List.not_mem_nil, false_or, hvalues]
    constructor
    · rintro ⟨v, hv, f, hf, hnamed, rfl⟩
      exact ⟨f, hf, hnamed, hv⟩
    · rintro ⟨f, hf, hnamed, hv⟩
      exact ⟨f.value, hv, f, hf, hnamed, rfl⟩

/-- The fields of one selector by the first of its values that they have, then in document order. -/
def ValueLt (form : Form) (s : Selector) (a b : Handle) : Prop :=
  Prod.Lex (· < ·) (· < ·) (form.valueIdx s a, a) (form.valueIdx s b, b)

/-- Each field of a selector is in one place, and these are ordered by values. A field that is
picked is found with its own value only. -/
theorem ordered_resolve (form : Form) (s : Selector) :
    (form.resolve s).Nodup ∧ (form.resolve s).Pairwise (form.ValueLt s) := by
  by_cases hvalues : s.values = []
  · have hresolve : form.resolve s = form.handlesWhere (form.isNamed s.name) := by
      simp [resolve, hvalues]
    rw [hresolve]
    refine ⟨nodup_handlesWhere _, (pairwise_handlesWhere _).imp fun {a b} hab => ?_⟩
    have hidx : ∀ h, form.valueIdx s h = 0 := fun h => by
      cases hf : form.field? h <;> simp [valueIdx, hf, hvalues]
    rw [ValueLt, hidx, hidx]
    exact Prod.Lex.right 0 hab
  · obtain ⟨hs, hresolve, hnodup, hpairwise, -⟩ := exists_unionHandles
      (fun v => form.handlesWhere fun f => form.isNamed s.name f && f.value == v)
      (fun _ => (· < ·)) s.values
      (fun v _ => nodup_handlesWhere _) (fun v _ => pairwise_handlesWhere _) []
    have hresolve : form.resolve s = hs := by
      rw [resolve, if_neg hvalues, hresolve, List.nil_append]
    rw [hresolve]
    refine ⟨hnodup, hpairwise.imp_of_mem fun {a b} ha hb hab => ?_⟩
    have hidx : ∀ h ∈ hs, s.values.findIdx (fun v => h ∈ form.handlesWhere fun f =>
        form.isNamed s.name f && f.value == v) = form.valueIdx s h := by
      intro h hh
      obtain ⟨f, hf, hnamed, -⟩ := isPicked_iff.1 (mem_resolve_iff.1 (hresolve ▸ hh))
      have hmem : ∀ v, (h ∈ form.handlesWhere fun f => form.isNamed s.name f && f.value == v) ↔
          v = f.value := fun v => by
        simp [mem_handlesWhere, hf, hnamed, @eq_comm _ v]
      simp only [hmem, valueIdx, hf, Option.map_some, Option.getD_some, List.idxOf]
      rfl
    rw [ValueLt, ← hidx a ha, ← hidx b hb]
    rcases hab.findIdx_lt_or with hlt | ⟨heq, -, -, -, hlt⟩
    · exact Prod.Lex.left _ _ hlt
    · rw [heq]
      exact Prod.Lex.right _ hlt

/-! ## Identifiers -/

theorem RankLt.asymm {r r' : Nat × Nat × Nat} (h : RankLt r r') : ¬ RankLt r' r := by
  simp only [RankLt, Prod.lex_def] at h ⊢
  omega

/-- Which fields there are and how they are ordered leaves no choice about the list. -/
theorem Resolves.unique {hs hs' : List Handle} (h : form.Resolves ss hs)
    (h' : form.Resolves ss hs') : hs = hs' := by
  have hperm : hs.Perm hs' := (List.perm_ext_iff_of_nodup h.nodup h'.nodup).2 fun i => by
    rw [h.mem_iff, h'.mem_iff]
  exact hperm.eq_of_pairwise (fun a b _ _ hab hba => absurd hba hab.asymm) h.ordered h'.ordered

/-- The fields of selectors in turn are those that some selector picks, each once and by rank. -/
theorem resolves_pick (form : Form) (ss : List Selector) :
    form.Resolves ss (form.pick (.fields ss)) := by
  obtain ⟨hs, hpick, hnodup, hpairwise, -⟩ := exists_unionHandles form.resolve
    form.ValueLt ss (fun s _ => (ordered_resolve form s).1)
    (fun s _ => (ordered_resolve form s).2) []
  have hpick : form.pick (.fields ss) = hs := hpick
  refine ⟨hpick ▸ hnodup, fun h => ?_, hpick ▸ hpairwise.imp fun {a b} hab => ?_⟩
  · simp only [mem_pick_fields, mem_resolve_iff]
  · have hfound := hab.findIdx_lt_or
    simp only [mem_resolve_iff, Bool.decide_eq_true] at hfound
    rcases hfound with hlt | ⟨heq, s, ha, hb, hlt⟩
    · exact Prod.Lex.left _ _ hlt
    · rw [RankLt, rank, rank, heq, ha, hb]
      exact Prod.Lex.right _ hlt

end Form

/-- Field resolution is exact, ordered and without duplicates. The fields of a blank identifier are
all fields in document order, those of a malformed one are none, and those of any other are the fields
that some of its selectors picks, each once, by the first selector that picks it, the first of its
values that the field has, and the document order. An identifier exists if it has a field. -/
theorem Engine.fields_resolved (e : Engine) (h : HostId) (host : Host) (text : String) :
    ∃ hs, (e.hostStep h host (.fields text)).answer = .handles hs ∧
      (e.hostStep h host (.exists text)).answer = .truth (decide (hs ≠ [])) ∧
      (Spec.parse text = .ok .all ↔ ∀ c ∈ text.toList, Text.isBlank c = true) ∧
      match Spec.parse text with
      | .ok .all => hs = List.range host.form.fields.length
      | .ok (.fields ss) => ∀ hs', host.form.Resolves ss hs' ↔ hs' = hs
      | .error _ => hs = [] := by
  have hfields : ∀ quiet, (host.fields text quiet).value = host.form.pick (Spec.lenient text) := by
    intro quiet
    rw [Host.fields, Traced.value_bind, Spec.value_read, Host.value_resolve]
  refine ⟨host.form.pick (Spec.lenient text), ?_, ?_, ?_, ?_⟩
  · exact congrArg Answer.handles (hfields false)
  · have hexists : (e.hostStep h host (.exists text)).answer =
        .truth (!(host.fields text true).value.isEmpty) := rfl
    rw [hexists, hfields]
    cases host.form.pick (Spec.lenient text) <;> simp
  · rw [Spec.parse_eq_all_iff, List.all_eq_true]
  · cases hparse : Spec.parse text with
    | error failure => simp [Spec.lenient, hparse, Form.pick]
    | ok spec =>
      rw [Spec.lenient_of_parse hparse]
      cases spec with
      | all => rfl
      | fields ss =>
        have hpick := host.form.resolves_pick ss
        exact fun hs' => ⟨fun hs => hs.unique hpick, fun heq => heq ▸ hpick⟩

/-- An order with two sizes and a note. -/
def sizesAndNote : Form where
  id := "order"
  fields := [{ id := "size", kind := .radio, value := "s" },
    { id := "size", kind := .radio, value := "m" }, { id := "note", kind := .text, value := "s" }]

-- The second size is named first, and the first one has to wait for its value or for the alias.
example : sizesAndNote.pick (Spec.lenient "size:m:x:s,<form>,size") = [1, 0, 2] := by decide +kernel

example : sizesAndNote.pick (Spec.lenient "size:m,order:s,note") = [1, 0, 2] := by decide +kernel

end FormRules
