import FormRules.Proofs.Descents
import FormRules.Proofs.Notices

/-!
# What a rule listens to

A rule asks a condition again when a field of the identifier's groups changes, whatever values the
identifier picks them by. Which fields a selector picks moves with what is written in the form, and
with it the entry's default, the fields that all have to satisfy a predicate, and the first active
field whose value is read. All of this is still read off the groups: hosts whose forms differ in
other fields only (`Host.IsAlike`) resolve the identifier to the same fields, read the same value
and check every condition with the same result, and report the same on the way
(`Host.IsAlike.resolve_eq`, `Host.IsAlike.valueOf_eq`, `Host.IsAlike.check_eq`).

Nothing that runs adds, removes or renames fields, so the fields that a rule subscribes to when it
is built are those of the groups for good. A result that is another one later has had one of them
change (`Engine.covers_of_mem`).
-/

namespace FormRules

/-- What follows a computation sees its value only. -/
theorem Traced.bind_congr {α β : Type} {x : Traced α} {f g : α → Traced β}
    (h : f x.value = g x.value) : x >>= f = x >>= g := by
  change x.andThen f = x.andThen g
  simp only [Traced.andThen, h]

/-- The value of a group is read off its members. -/
theorem Form.groupValue_congr {form form' : Form} {hs : List Handle}
    (h : ∀ i ∈ hs, form'.field? i = form.field? i) : form'.groupValue hs = form.groupValue hs := by
  induction hs with
  | nil => rfl
  | cons i hs ih =>
    obtain ⟨hi, hrest⟩ := List.forall_mem_cons.1 h
    simp only [groupValue, hi, ih hrest]

namespace Host

/-- Two hosts check with one table, and their forms have one id and, in the same order, fields of
the same ids. The fields of the identifier's groups are the same in both. -/
structure IsAlike (host host' : Host) (spec : Spec) : Prop extends
    host.form.SameIds host'.form where
  evaluations : host'.evaluations = host.evaluations
  field : ∀ h ∈ (host.resolve spec.trigger true).value, host'.form.field? h = host.form.field? h

namespace IsAlike

variable {host host' : Host} {spec : Spec}

theorem agree (h : host.IsAlike host' spec) : host.form.Agree host'.form spec := by
  refine ⟨h.toSameIds, fun i hi => ?_⟩
  rw [h.field i (by rwa [value_resolve])]

/-- The fields that the identifier picks are the same in both forms. -/
theorem field_of_resolve (h : host.IsAlike host' spec) {quiet : Bool} {i : Handle}
    (hi : i ∈ (host.resolve spec quiet).value) : host'.form.field? i = host.form.field? i := by
  refine h.field i ?_
  rw [value_resolve] at hi ⊢
  exact Form.pick_subset_trigger hi

theorem resolve_eq (h : host.IsAlike host' spec) (quiet : Bool) :
    host'.resolve spec quiet = host.resolve spec quiet := by
  cases spec with
  | all => simp [Host.resolve, Form.handles, h.length_fields]
  | fields ss =>
    have hresolve : ∀ s ∈ ss, host'.form.resolve s = host.form.resolve s :=
      fun s hs => h.agree.resolve hs
    have hall : ∀ (ss : List Selector) (found : List Handle),
        (∀ s ∈ ss, host'.form.resolve s = host.form.resolve s) →
        host'.resolveAll quiet found ss = host.resolveAll quiet found ss := by
      intro ss
      induction ss with
      | nil => exact fun _ _ => rfl
      | cons s ss ih =>
        intro found hss
        obtain ⟨hs, hrest⟩ := List.forall_mem_cons.1 hss
        simp only [resolveAll, hs, h.name, ih _ hrest]
    exact hall ss [] hresolve

theorem valueOf_eq (h : host.IsAlike host' spec) : host'.valueOf spec = host.valueOf spec := by
  have hvalue : host'.form.groupValue (host.resolve spec false).value =
      host.form.groupValue (host.resolve spec false).value :=
    Form.groupValue_congr fun i hi => h.field_of_resolve hi
  unfold valueOf
  rw [h.resolve_eq]
  exact congrArg (Traced.mk · _) hvalue

/-- Predicates may look at all there is of a field. -/
theorem check_eq (h : host.IsAlike host' spec) (flags : Flags) (c : Value) :
    host'.check flags spec c = host.check flags spec c := by
  unfold check
  rw [h.evaluations, h.resolve_eq]
  refine Traced.bind_congr ?_
  split
  · rfl
  · refine Traced.allM_congr fun i hi => ?_
    have hi : host'.form.field? i = host.form.field? i := h.field_of_resolve hi
    rw [hi]
    cases host.form.field? i with
    | none => rfl
    | some f => rw [Form.value?, Form.value?, Form.groupValue_congr (by simpa using hi)]

end IsAlike

/-- Where a result differs, so does a field of the groups. -/
theorem exists_field_ne_of_check {host host' : Host} {spec : Spec} {flags : Flags} {c : Value}
    (hids : host.form.SameIds host'.form) (hevaluations : host'.evaluations = host.evaluations)
    (hne : (host'.check flags spec c).value ≠ (host.check flags spec c).value) :
    ∃ k ∈ host.form.pick spec.trigger, host'.form.field? k ≠ host.form.field? k := by
  by_contra hsame
  push Not at hsame
  have halike : host.IsAlike host' spec :=
    ⟨hids, hevaluations, fun k hk => hsame k (by rwa [value_resolve] at hk)⟩
  exact hne (congrArg Traced.value (halike.check_eq flags c))

end Host

namespace Engine

/-- From now on the host has the subscription, and whenever the result of a condition on the
identifier is another one than before, a field that the subscription covers is too. -/
def Covers (e : Engine) (h : HostId) (sub : Subscription) (spec : Spec) : Prop :=
  ∀ m n host host', (e.run m).host? h = some host → (e.run n).host? h = some host' →
    sub ∈ host.subscriptions ∧
    ∀ flags c, host'.evaluations = host.evaluations →
      (host'.check flags spec c).value ≠ (host.check flags spec c).value →
      ∃ k, sub.covers k = true ∧ host'.form.field? k ≠ host.form.field? k

/-- A subscription to the groups of an identifier covers the identifier. Fields keep their ids, and
so the groups stay what they were. -/
theorem covers_of_mem {e : Engine} {h : HostId} {host : Host} (hhost : e.host? h = some host)
    {spec : Spec} {l : Listener}
    (hsub : ⟨some (host.form.pick spec.trigger), l⟩ ∈ host.subscriptions) :
    e.Covers h ⟨some (host.form.pick spec.trigger), l⟩ spec := by
  have hgrows : ∀ {n : Nat} {host' : Host}, (e.run n).host? h = some host' → host.Grows host' := by
    intro n host' hhost'
    obtain ⟨_, hrun, hgrows⟩ := exists_host_run hhost n
    obtain rfl := Option.some.inj (hrun.symm.trans hhost')
    exact hgrows
  intro m n host₁ host₂ hhost₁ hhost₂
  have hids₁ : host.form.SameIds host₁.form := (hgrows hhost₁).fields
  have hids : host₁.form.SameIds host₂.form := hids₁.symm.trans (hgrows hhost₂).fields
  refine ⟨(hgrows hhost₁).subscriptions.subset hsub, fun flags c hevaluations hne => ?_⟩
  obtain ⟨k, hk, hfield⟩ := Host.exists_field_ne_of_check hids hevaluations hne
  rw [hids₁.pick_trigger] at hk
  exact ⟨k, by simpa [Subscription.covers] using hk, hfield⟩

/-- A rule that gets a condition on an identifier has a subscription that covers it. -/
theorem exists_covers_when {e : Engine} {f : Facet} {host : Host}
    (hhost : e.host? f.host = some host) (c : ConditionSpec) (field : Option String)
    (hspec : (Spec.lenient (field.getD formAlias)).isAll = false) :
    ∃ sub : Subscription, sub.listener = .query f.query ∧
      (e.conditionOp f (.when c field)).1.Covers f.host sub
        (Spec.lenient (field.getD formAlias)) := by
  rw [← Spec.value_read] at hspec ⊢
  have hleaf := Grows.conditionLeaf
    (Moves.observe (Grows.refl e) (Spec.read (field.getD formAlias)))
    f.host (field.getD formAlias) (Spec.read (field.getD formAlias)).value c
  obtain ⟨host₁, hhost₁, -⟩ := (Grows.addCondition hleaf f.query _ _).host f.host host hhost
  obtain ⟨host₂, hhost₂, hform, hsub⟩ := exists_listenTo hhost₁ hspec
  rw [← hform] at hsub
  exact ⟨_, rfl, covers_of_mem hhost₂ hsub⟩

/-- A subscription covers everything that its condition reads. Whatever the evaluations of the table
look at, hosts on forms that differ in no field of the identifier's groups resolve the identifier to
the same fields, read the same value and check every condition with the same result. A rule that
gets a condition on an identifier, unless this is the blank one, has a subscription from then on,
and when the result of a check on the identifier is another one than before, a field that the
subscription covers has changed. -/
theorem subscription_covers_check :
    (∀ (host host' : Host) (spec : Spec), host.IsAlike host' spec →
      (∀ quiet, host'.resolve spec quiet = host.resolve spec quiet) ∧
      host'.valueOf spec = host.valueOf spec ∧
      ∀ flags c, host'.check flags spec c = host.check flags spec c) ∧
    ∀ (e : Engine) (f : Facet) (host : Host) (c : ConditionSpec) (field : Option String),
      e.host? f.host = some host → (Spec.lenient (field.getD formAlias)).isAll = false →
      ∃ sub : Subscription, sub.listener = .query f.query ∧
        (e.conditionOp f (.when c field)).1.Covers f.host sub
          (Spec.lenient (field.getD formAlias)) := by
  refine ⟨fun host host' spec halike => ?_, fun e f host c field hhost hspec => ?_⟩
  · exact ⟨halike.resolve_eq, halike.valueOf_eq, halike.check_eq⟩
  · exact exists_covers_when hhost c field hspec

end Engine

/-- A host that compares conditions strictly, on an order with a code and a note. -/
def orderHost (code note : String) : Host where
  config := {}
  form := ((Form.empty "order").add { id := "code", kind := .text, value := code }).add
    { id := "note", kind := .text, value := note }
  actions := {}
  resolver := { rules := {} }
  evaluations := {}

/-- The code, as long as it says that the order is a gift. -/
def giftCode : Spec := .fields [⟨"code", ["gift"]⟩]

/-- An order with a new rule, and a code that is about to be written. -/
def recoded : Engine where
  hosts := [orderHost "gift" ""]
  queries := [{}]
  agenda := [.write 0 "code" (.text "book") false]

/-- The order under a rule about the code of a gift. -/
def giftRule : Engine :=
  (recoded.conditionOp ⟨.condition, 0, 0⟩ (.when (.value (.text "gift")) (some "code:gift"))).1

/-- The code of a gift is picked by its value, whatever the note says. With another code no field
is picked, and the default decides: the result moves, and so does a field that is listened to. -/
theorem Engine.subscription_covers_check_gift :
    (orderHost "gift" "").IsAlike (orderHost "gift" "for you") giftCode ∧
    (orderHost "gift" "for you").check (fun _ => false) giftCode (.text "gift") =
      (orderHost "gift" "").check (fun _ => false) giftCode (.text "gift") ∧
    ∃ sub : Subscription, sub.listener = .query 0 ∧ giftRule.Covers 0 sub giftCode ∧
      ∃ k, sub.covers k = true ∧
        (orderHost "book" "").form.field? k ≠ (orderHost "gift" "").form.field? k := by
  have halike : (orderHost "gift" "").IsAlike (orderHost "gift" "for you") giftCode :=
    ⟨⟨rfl, by decide⟩, rfl, by decide⟩
  obtain ⟨-, -, hcheck⟩ := subscription_covers_check.1 _ _ _ halike
  have hparse : Spec.parse "code:gift" = .ok giftCode := by decide +kernel
  have hspec : Spec.lenient "code:gift" = giftCode := Spec.lenient_of_parse hparse
  obtain ⟨sub, hlistener, hcovers⟩ := subscription_covers_check.2 recoded ⟨.condition, 0, 0⟩
    (orderHost "gift" "") (.value (.text "gift")) (some "code:gift") rfl
    (by rw [Option.getD_some, hspec]; rfl)
  rw [Option.getD_some, hspec] at hcovers
  have hrule : giftRule = (recoded.addCondition 0 (.check 0 giftCode (.text "gift")) false).listenTo
      ⟨.condition, 0, 0⟩ giftCode := by
    simp only [giftRule, conditionOp, Option.getD_some, Spec.read, hparse]
    rfl
  obtain ⟨host, hhost, hevaluations⟩ : ∃ host, (giftRule.run 1).host? 0 = some host ∧
      host.evaluations = {} := hrule ▸ ⟨_, rfl, rfl⟩
  have hform : ((giftRule.run 1).host? 0).map Host.form = some (orderHost "book" "").form := by
    decide +kernel
  rw [hhost] at hform
  have hform : host.form = (orderHost "book" "").form := Option.some.inj hform
  obtain ⟨host₀, hhost₀, hsame⟩ : ∃ host₀, (giftRule.run 0).host? 0 = some host₀ ∧
      host₀.form = (orderHost "gift" "").form ∧ host₀.evaluations = {} :=
    hrule ▸ ⟨_, rfl, rfl, rfl⟩
  obtain ⟨-, hchange⟩ := hcovers 0 1 host₀ host hhost₀ hhost
  have hmoves := hchange (fun _ => false) (.text "gift") (hevaluations.trans hsame.2.symm) (by
    rw [Host.value_check, Host.value_check, hevaluations, hform, hsame.1, hsame.2]
    decide +kernel)
  rw [hform, hsame.1] at hmoves
  exact ⟨halike, hcheck _ _, sub, hlistener, hcovers, hmoves⟩

end FormRules
