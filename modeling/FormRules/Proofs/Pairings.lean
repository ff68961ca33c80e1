import FormRules.Proofs.Opposites

/-!
# When inferred opposites are stable

A search finds the first candidate of a name that is an action (`AffixRules.found`). What it finds is
recorded in both directions, so a look-up can change the answer of another name, and even that of a
name which has been answered before.

That does not happen if what searches find is a pairing: no two names find the same one, and a name
that is found by another finds that one or none (`AffixRules.IsPairing`). Then every record is
symmetric and stays (`Resolver.IsPaired.after`), and all answers to a name agree, in whatever order
the names are looked up. Without a pairing two or three look-ups are enough to get two answers for
one name, so the condition is exact (`Resolver.isStable_iff`). The usual rules are no pairing as soon
as `disable` is an action: both `enable` and `able` find it.
-/

namespace FormRules

/-! ## Look-ups -/

/-- What a search of the rules finds for a name. -/
def AffixRules.found (rules : AffixRules) (named : String → Bool) (x : String) : Option String :=
  (rules.candidates x).find? named

/-- No two proper names find the same one, and a name that is found by another finds that one or
none. -/
structure AffixRules.IsPairing (rules : AffixRules) (named : String → Bool) : Prop where
  injective : ∀ a b c, a ≠ "" → c ≠ "" →
    rules.found named a = some b → rules.found named c = some b → a = c
  involutive : ∀ a b c, a ≠ "" →
    rules.found named a = some b → rules.found named b = some c → a = c

namespace Resolver

/-- A new resolver after look-ups. -/
def asked (rules : AffixRules) (named : String → Bool) (names : List String) : Resolver :=
  run named { rules } (names.map .resolve)

/-- The answer to a name on a new resolver after others have been looked up. -/
def answer (rules : AffixRules) (named : String → Bool) (before : List String) (x : String) :
    Option String :=
  ((asked rules named before).resolve x named).1

/-- Answers are symmetric and stay: once a name is answered with another, each is answered with the
other after any further look-ups. -/
def IsStable (rules : AffixRules) (named : String → Bool) : Prop :=
  ∀ before a b between, (∀ x ∈ before ++ a :: between, x ≠ "") →
    answer rules named before a = some b →
      answer rules named (before ++ a :: between) a = some b ∧
      answer rules named (before ++ a :: between) b = some a

/-- All answers to a name agree, whatever is looked up before. -/
def IsOrderFree (rules : AffixRules) (named : String → Bool) : Prop :=
  ∀ before before' a b b', (∀ x ∈ a :: before ++ before', x ≠ "") →
    answer rules named before a = some b → answer rules named before' a = some b' → b = b'

/-! ## Records -/

/-- Every record is between proper names, one of which finds the other, and is there in both
directions. -/
def IsSymmetric (named : String → Bool) (r : Resolver) : Prop :=
  ∀ x y, r.partner x = some y → x ≠ "" ∧ r.partner y = some x ∧
    (r.rules.found named x = some y ∨ r.rules.found named y = some x)

variable {named : String → Bool} {r : Resolver} {a b x y : String}

/-- The empty name is found only if it is registered. -/
theorem found_ne_empty {rules : AffixRules} (hnamed : named "" = false)
    (h : rules.found named x = some y) : y ≠ "" := by
  rintro rfl
  have hname := List.find?_some h
  simp [hnamed] at hname

/-- A resolver without records is symmetric. -/
theorem isSymmetric_new (rules : AffixRules) : IsSymmetric named { rules } := by
  intro x y h
  simp [partner] at h

/-- What is known of a name is its partner. -/
theorem IsSymmetric.known_eq (h : r.IsSymmetric named) (x : String) : r.known x = r.partner x := by
  rw [known_eq_partner]
  cases hx : r.partner x with
  | none => rfl
  | some y =>
    have hy : y ≠ "" := (h y x (h x y hx).2.1).1
    simp [hy]

/-- The answer is the partner of a name, or else what a search finds. -/
theorem IsSymmetric.resolve_fst_eq (h : r.IsSymmetric named) (x : String) :
    (r.resolve x named).1 = (r.partner x).or (r.rules.found named x) := by
  rw [resolve_fst, h.known_eq]
  rfl

/-- A search records what it finds for a name without a partner. -/
theorem IsSymmetric.inferred_eq_some_iff (h : r.IsSymmetric named) :
    r.inferred named a = some b ↔ r.partner a = none ∧ r.rules.found named a = some b := by
  rw [inferred, h.known_eq]
  cases r.partner a <;> simp [AffixRules.found]

theorem other_self_left (a b : String) : other a a b = some b := by
  by_cases h : a = b <;> simp [other, h]

theorem other_self_right (a b : String) : other b a b = some a := by
  simp [other]

theorem other_eq_none_iff : other x a b = none ↔ x ≠ a ∧ x ≠ b := by
  unfold other
  split
  · next h => simp [h]
  · next h => split <;> simp_all

/-- One of two names is the other of the other. -/
theorem eq_of_other (h : other x a b = some y) : x = a ∧ y = b ∨ x = b ∧ y = a := by
  unfold other at h
  split at h
  · next hb => exact Or.inr ⟨hb, (Option.some.inj h).symm⟩
  · split at h
    · next ha => exact Or.inl ⟨ha, (Option.some.inj h).symm⟩
    · simp at h

/-- In a pairing, neither name of a new pair has a record. -/
theorem IsSymmetric.partner_eq_none (hp : r.rules.IsPairing named) (h : r.IsSymmetric named)
    (ha : a ≠ "") (hnone : r.partner a = none) (hfound : r.rules.found named a = some b) :
    r.partner b = none := by
  cases hb : r.partner b with
  | none => rfl
  | some c =>
    obtain ⟨-, hc, hfinds⟩ := h b c hb
    have hac : a = c := by
      rcases hfinds with hbc | hcb
      · exact hp.involutive a b c ha hfound hbc
      · exact hp.injective a b c ha (h c b hc).1 hfound hcb
    rw [← hac, hnone] at hc
    contradiction

/-- A look-up keeps all records, and they stay symmetric. What it records is about two names that
had no record, so none is overwritten. -/
theorem IsSymmetric.after (hnamed : named "" = false) (hp : r.rules.IsPairing named)
    (h : r.IsSymmetric named) (ha : a ≠ "") : (r.after named (.resolve a)).IsSymmetric named ∧
      ∀ x y, r.partner x = some y → (r.after named (.resolve a)).partner x = some y := by
  simp only [IsSymmetric, partner_after_resolve, rules_after]
  cases hi : r.inferred named a with
  | none => exact ⟨h, fun _ _ hx => hx⟩
  | some b =>
    obtain ⟨hnone, hfound⟩ := h.inferred_eq_some_iff.1 hi
    have hb := h.partner_eq_none hp ha hnone hfound
    have hkeep : ∀ x y, r.partner x = some y → other x a b = none := by
      intro x y hx
      rw [other_eq_none_iff]
      constructor
      · rintro rfl
        simp [hnone] at hx
      · rintro rfl
        simp [hb] at hx
    refine ⟨fun x y hx => ?_, fun x y hx => by simp [hkeep x y hx, hx]⟩
    rw [Option.bind_some] at hx
    rcases Option.or_eq_some_iff.1 hx with hx | ⟨-, hx⟩
    · rcases eq_of_other hx with ⟨rfl, rfl⟩ | ⟨rfl, rfl⟩
      · exact ⟨ha, by simp [other_self_right], Or.inl hfound⟩
      · exact ⟨found_ne_empty hnamed hfound, by simp [other_self_left], Or.inr hfound⟩
    · obtain ⟨hxne, hy, hfinds⟩ := h x y hx
      exact ⟨hxne, by simp [hkeep y x hy, hy], hfinds⟩

/-- Look-ups keep records symmetric where searches are a pairing, and they keep the partners that
there are. -/
theorem IsSymmetric.run (hnamed : named "" = false) (hp : r.rules.IsPairing named)
    (h : r.IsSymmetric named) {names : List String} (hnames : ∀ x ∈ names, x ≠ "") :
    (r.run named (names.map .resolve)).IsSymmetric named ∧
      ∀ x y, r.partner x = some y → (r.run named (names.map .resolve)).partner x = some y := by
  induction names generalizing r with
  | nil => exact ⟨h, fun _ _ hx => hx⟩
  | cons a names ih =>
    obtain ⟨ha, hnames⟩ := List.forall_mem_cons.1 hnames
    obtain ⟨hafter, hkeeps⟩ := h.after hnamed hp ha
    obtain ⟨hrun, hkeeps'⟩ := ih (by rwa [rules_after]) hafter hnames
    exact ⟨hrun, fun x y hx => hkeeps' x y (hkeeps x y hx)⟩

/-- A name that was answered has its answer on record. -/
theorem IsSymmetric.partner_of_answer (h : r.IsSymmetric named)
    (hanswer : (r.resolve a named).1 = some b) :
    (r.after named (.resolve a)).partner a = some b := by
  rw [h.resolve_fst_eq] at hanswer
  rw [partner_after_resolve]
  cases hpartner : r.partner a with
  | none =>
    have hfound : r.rules.found named a = some b := by simpa [hpartner] using hanswer
    rw [h.inferred_eq_some_iff.2 ⟨hpartner, hfound⟩, Option.bind_some, other_self_left]
    rfl
  | some c =>
    have hi : r.inferred named a = none := by
      rw [Option.eq_none_iff_forall_ne_some]
      intro d hd
      simp [hpartner, h.inferred_eq_some_iff] at hd
    simpa [hi, hpartner] using hanswer

variable {rules : AffixRules} {names before : List String}

/-- A look-up in the middle. -/
theorem asked_append_cons (before : List String) (a : String) (between : List String) :
    asked rules named (before ++ a :: between) =
      ((asked rules named before).after named (.resolve a)).run named (between.map .resolve) := by
  rw [asked, asked, List.map_append, List.map_cons, run, run, run, List.foldl_append,
    List.foldl_cons]

/-- Look-ups change no rules. -/
theorem rules_asked : (asked rules named names).rules = rules :=
  rules_run named { rules } (names.map .resolve)

/-- Records are symmetric after any look-ups. -/
theorem isSymmetric_asked (hnamed : named "" = false) (hp : rules.IsPairing named)
    (hnames : ∀ x ∈ names, x ≠ "") : (asked rules named names).IsSymmetric named :=
  (IsSymmetric.run hnamed hp (isSymmetric_new rules) hnames).1

/-- In a pairing one of the two names of an answer finds the other. -/
theorem found_of_answer (hnamed : named "" = false) (hp : rules.IsPairing named)
    (hbefore : ∀ x ∈ before, x ≠ "") (h : answer rules named before a = some b) :
    b ≠ "" ∧ (rules.found named a = some b ∨ rules.found named b = some a) := by
  have hsymm := isSymmetric_asked hnamed hp hbefore
  rw [answer, hsymm.resolve_fst_eq, rules_asked] at h
  rcases Option.or_eq_some_iff.1 h with h | ⟨-, h⟩
  · obtain ⟨-, hb, hfinds⟩ := hsymm a b h
    rw [rules_asked] at hfinds
    exact ⟨(hsymm b a hb).1, hfinds⟩
  · exact ⟨found_ne_empty hnamed h, Or.inl h⟩

/-- Where searches are a pairing, answers are stable. -/
theorem isStable_of_isPairing (hnamed : named "" = false) (hp : rules.IsPairing named) :
    IsStable rules named := by
  intro before a b between hnames hanswer
  simp only [List.forall_mem_append, List.forall_mem_cons] at hnames
  obtain ⟨hbefore, ha, hbetween⟩ := hnames
  have hsymm := isSymmetric_asked hnamed hp hbefore
  obtain ⟨hafter, -⟩ := hsymm.after hnamed (by rwa [rules_asked]) ha
  have hab := hsymm.partner_of_answer hanswer
  obtain ⟨hrun, hkeeps⟩ := hafter.run hnamed (by rwa [rules_after, rules_asked]) hbetween
  rw [answer, answer, asked_append_cons]
  rw [hrun.resolve_fst_eq, hrun.resolve_fst_eq, hkeeps a b hab, hkeeps b a (hafter a b hab).2.1]
  exact ⟨rfl, rfl⟩

/-- Where searches are a pairing, answers do not depend on the order of look-ups. -/
theorem isOrderFree_of_isPairing (hnamed : named "" = false) (hp : rules.IsPairing named) :
    IsOrderFree rules named := by
  intro before before' a b b' hnames h h'
  simp only [List.cons_append, List.forall_mem_cons, List.forall_mem_append] at hnames
  obtain ⟨ha, hbefore, hbefore'⟩ := hnames
  obtain ⟨hb, hfinds⟩ := found_of_answer hnamed hp hbefore h
  obtain ⟨hb', hfinds'⟩ := found_of_answer hnamed hp hbefore' h'
  rcases hfinds with hab | hba
  · rcases hfinds' with hab' | hba'
    · exact Option.some.inj (hab.symm.trans hab')
    · exact (hp.involutive b' a b hb' hba' hab).symm
  · rcases hfinds' with hab' | hba'
    · exact hp.involutive b a b' hb hba hab'
    · exact hp.injective b a b' hb hb' hba hba'

/-! ## Short sequences of look-ups -/

/-- The first answer is what a search finds. -/
theorem answer_nil (x : String) : answer rules named [] x = rules.found named x := by
  rw [answer, resolve_fst]
  rfl

/-- The answers after one search that found something. -/
theorem answer_singleton (hb : b ≠ "") (ha : a ≠ "") (h : rules.found named a = some b) (x : String) :
    answer rules named [a] x = (other x a b).or (rules.found named x) := by
  have hi : ({ rules } : Resolver).inferred named a = some b :=
    (isSymmetric_new rules).inferred_eq_some_iff.2 ⟨rfl, h⟩
  have hpartner : (asked rules named [a]).partner x = other x a b := by
    rw [asked, run, List.map_singleton, List.foldl_cons, List.foldl_nil, partner_after_resolve, hi,
      Option.bind_some]
    exact Option.or_none
  rw [answer, resolve_fst, known_eq_partner, hpartner, rules_asked]
  cases hother : other x a b with
  | none => rfl
  | some y =>
    have hy : y ≠ "" := by
      rcases eq_of_other hother with ⟨-, rfl⟩ | ⟨-, rfl⟩
      · exact hb
      · exact ha
    simp [hy]

/-- Where answers do not depend on the order, two look-ups show that searches are a pairing. -/
theorem isPairing_of_isOrderFree (hnamed : named "" = false) (h : IsOrderFree rules named) :
    rules.IsPairing named where
  injective := by
    intro a b c ha hc hab hcb
    have hb := found_ne_empty hnamed hab
    refine h [a] [c] b a c (by simp [ha, hb, hc]) ?_ ?_
    · rw [answer_singleton hb ha hab, other_self_right, Option.some_or]
    · rw [answer_singleton hb hc hcb, other_self_right, Option.some_or]
  involutive := by
    intro a b c ha hab hbc
    have hb := found_ne_empty hnamed hab
    refine h [a] [] b a c (by simp [ha, hb]) ?_ ?_
    · rw [answer_singleton hb ha hab, other_self_right, Option.some_or]
    · rw [answer_nil, hbc]

/-- Two names that find the same one are the same, unless the first finds itself. -/
theorem IsStable.eq_of_found (h : IsStable rules named) (hnamed : named "" = false) {c : String}
    (ha : a ≠ "") (hc : c ≠ "") (hab : rules.found named a = some b)
    (hcb : rules.found named c = some b) (hne : a ≠ b) : a = c := by
  refine Decidable.not_not.1 fun hac => ?_
  have hb := found_ne_empty hnamed hab
  have hanswer : answer rules named [c] a = some b := by
    rw [answer_singleton hb hc hcb, other_eq_none_iff.2 ⟨hac, hne⟩, hab]
    rfl
  have hlast := (h [c] a b [] (by simp [ha, hc]) hanswer).2
  have hfirst := (h [] c b [a] (by simp [ha, hc]) (by rw [answer_nil, hcb])).2
  exact hac (Option.some.inj (hlast.symm.trans hfirst))

/-- Where answers are stable, a few look-ups show that searches are a pairing. -/
theorem isPairing_of_isStable (hnamed : named "" = false) (h : IsStable rules named) :
    rules.IsPairing named where
  injective := by
    intro a b c ha hc hab hcb
    by_cases hne : a = b
    · by_cases hne' : c = b
      · rw [hne, hne']
      · exact (h.eq_of_found hnamed hc ha hcb hab hne').symm
    · exact h.eq_of_found hnamed ha hc hab hcb hne
  involutive := by
    intro a b c ha hab hbc
    have hb := found_ne_empty hnamed hab
    have hc := found_ne_empty hnamed hbc
    by_cases hne : a = b
    · subst hne
      exact Option.some.inj (hab.symm.trans hbc)
    · refine Decidable.not_not.1 fun hac => ?_
      have hanswer : answer rules named [b] a = some b := by
        rw [answer_singleton hc hb hbc, other_eq_none_iff.2 ⟨hne, hac⟩, hab]
        rfl
      have hlast := (h [b] a b [] (by simp [ha, hb]) hanswer).2
      have hfirst := (h [] b c [a] (by simp [ha, hb]) (by rw [answer_nil, hbc])).1
      exact hac (Option.some.inj (hlast.symm.trans hfirst))

/-- Inferred opposites are symmetric and stable, and do not depend on the order of look-ups, if and
only if what searches find is a pairing. -/
theorem isStable_iff (rules : AffixRules) (named : String → Bool) (hnamed : named "" = false) :
    (IsStable rules named ↔ rules.IsPairing named) ∧
      (IsOrderFree rules named ↔ rules.IsPairing named) :=
  ⟨⟨isPairing_of_isStable hnamed, isStable_of_isPairing hnamed⟩,
    ⟨isPairing_of_isOrderFree hnamed, isOrderFree_of_isPairing hnamed⟩⟩

/-- Whether a name is one of three actions. -/
def isAbleEnableDisable (name : String) : Bool := ["able", "enable", "disable"].contains name

/-- With the usual rules both `able` and `enable` find `disable`, so answers are not stable. -/
theorem not_isStable_standard : ¬ IsStable .standard isAbleEnableDisable := by
  intro h
  have hpairing := (isStable_iff .standard isAbleEnableDisable (by decide)).1.1 h
  exact absurd (hpairing.injective "able" "disable" "enable" (by decide) (by decide) (by decide)
    (by decide)) (by decide)

/-- Once `able` was answered with `disable`, a look-up of `enable` makes `enable` the opposite of
`disable`. -/
theorem answer_disable_changes :
    answer .standard isAbleEnableDisable [] "able" = some "disable" ∧
      answer .standard isAbleEnableDisable ["able", "enable"] "disable" = some "enable" := by
  decide

end Resolver

end FormRules
