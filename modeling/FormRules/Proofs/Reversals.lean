import FormRules.Proofs.Inference
import Mathlib.Data.List.TakeWhile

/-!
# Opposites from the other side

A name that is tried as the opposite of another can be looked up itself. The rules are read both
ways, so with plain letters each name is then among those that are tried for the other
(`Resolver.tried_comm`). Two things could break this. What is left of a name behind an affix is
offered in both cases of its first letter, and an ending is recognised in both: with ASCII letters
these come to the same, two texts that agree but for the case of the first letter
(`Text.eq_either_iff`), which is symmetric. And an empty affix ends no name, though names are
offered that end in nothing instead of the other, so a rule for the end of names must have two
proper sides.
-/

namespace FormRules

open Text

/-! ## ASCII letters -/

namespace Text

/-- All characters are ASCII. -/
def IsAscii (cs : List Char) : Prop := ∀ c ∈ cs, c.toNat < 0x80

instance (cs : List Char) : Decidable (IsAscii cs) :=
  List.decidableBAll (fun c : Char => c.toNat < 0x80) cs

variable {c : Char} {cs ds : List Char}

theorem isAscii_append : IsAscii (cs ++ ds) ↔ IsAscii cs ∧ IsAscii ds := List.forall_mem_append

/-- What holds of the ASCII characters one by one. -/
theorem of_ascii {P : Char → Prop} (h : ∀ n < 0x80, P (Char.ofNat n)) (hc : c.toNat < 0x80) :
    P c := by
  have hn := h c.toNat hc
  rwa [Char.ofNat_toNat] at hn

/-- A letter of ASCII has two cases, which are ASCII and lead back to each other. -/
theorem cases_of_ascii (hc : c.toNat < 0x80) : c.toLower.toNat < 0x80 ∧ c.toUpper.toNat < 0x80 ∧
    c.toLower.toLower = c.toLower ∧ c.toUpper.toLower = c.toLower ∧
    c.toLower.toUpper = c.toUpper ∧ (c = c.toLower ∨ c = c.toUpper) :=
  of_ascii (P := fun c => c.toLower.toNat < 0x80 ∧ c.toUpper.toNat < 0x80 ∧
    c.toLower.toLower = c.toLower ∧ c.toUpper.toLower = c.toLower ∧
    c.toLower.toUpper = c.toUpper ∧ (c = c.toLower ∨ c = c.toUpper)) (by decide +kernel) hc

theorem lowerFirst_lowerFirst (hcs : IsAscii cs) :
    lowerFirst (lowerFirst cs) = lowerFirst cs := by
  cases cs with
  | nil => rfl
  | cons c cs =>
    have hc := hcs c List.mem_cons_self
    obtain ⟨hlower, -, heq, -⟩ := cases_of_ascii hc
    simp [lowerFirst, lowerChar_of_ascii, hc, hlower, heq]

/-- Of the two cases of a first letter the one that is taken last counts. -/
theorem lowerFirst_upperFirst (hcs : IsAscii cs) :
    lowerFirst (upperFirst cs) = lowerFirst cs := by
  cases cs with
  | nil => rfl
  | cons c cs =>
    have hc := hcs c List.mem_cons_self
    obtain ⟨-, hupper, -, heq, -⟩ := cases_of_ascii hc
    simp [lowerFirst, upperFirst, lowerChar_of_ascii, upperChar_of_ascii, hc, hupper, heq]

theorem upperFirst_lowerFirst (hcs : IsAscii cs) :
    upperFirst (lowerFirst cs) = upperFirst cs := by
  cases cs with
  | nil => rfl
  | cons c cs =>
    have hc := hcs c List.mem_cons_self
    obtain ⟨hlower, -, -, -, heq, -⟩ := cases_of_ascii hc
    simp [lowerFirst, upperFirst, lowerChar_of_ascii, upperChar_of_ascii, hc, hlower, heq]

/-- A text begins in one of the two cases. -/
theorem eq_lowerFirst_or_eq_upperFirst (hcs : IsAscii cs) :
    cs = lowerFirst cs ∨ cs = upperFirst cs := by
  cases cs with
  | nil => exact Or.inl rfl
  | cons c cs =>
    have hc := hcs c List.mem_cons_self
    obtain ⟨-, -, -, -, -, heq⟩ := cases_of_ascii hc
    simpa [lowerFirst, upperFirst, lowerChar_of_ascii, upperChar_of_ascii, hc] using heq

/-- One text is another in either case of its first letter if and only if they agree but for the
case of the first letter. -/
theorem eq_either_iff (hcs : IsAscii cs) (hds : IsAscii ds) :
    ds = lowerFirst cs ∨ ds = upperFirst cs ↔ lowerFirst ds = lowerFirst cs := by
  constructor
  · rintro (rfl | rfl)
    · exact lowerFirst_lowerFirst hcs
    · exact lowerFirst_upperFirst hcs
  · intro h
    refine (eq_lowerFirst_or_eq_upperFirst hds).imp (fun hlower => hlower.trans h) fun hupper => ?_
    rw [← upperFirst_lowerFirst hcs, ← h, upperFirst_lowerFirst hds]
    exact hupper

/-- A character of ASCII has one byte. -/
theorem byteSize_of_ascii (hcs : IsAscii cs) : byteSize cs = cs.length := by
  induction cs with
  | nil => rfl
  | cons c cs ih =>
    obtain ⟨hc, hcs⟩ := List.forall_mem_cons.1 hcs
    have hsize : c.utf8Size = 1 := of_ascii (P := fun c => c.utf8Size = 1) (by decide +kernel) hc
    rw [byteSize_cons, hsize, ih hcs, List.length_cons, Nat.add_comm]

theorem length_lowerFirst (hcs : IsAscii cs) : (lowerFirst cs).length = cs.length := by
  cases cs with
  | nil => rfl
  | cons c cs => simp [lowerFirst, lowerChar_of_ascii (hcs c List.mem_cons_self)]

/-- Texts that agree but for the case of the first letter have as many bytes. -/
theorem byteSize_eq_of_lowerFirst (hcs : IsAscii cs) (hds : IsAscii ds)
    (h : lowerFirst ds = lowerFirst cs) : byteSize ds = byteSize cs := by
  rw [byteSize_of_ascii hcs, byteSize_of_ascii hds, ← length_lowerFirst hcs, ← h,
    length_lowerFirst hds]

end Text

/-! ## One rule -/

namespace AffixRule

variable {affix opposite name other : List Char}

/-- The names start with the two sides of a rule, and what is behind them agrees but for the case of
its first letter. -/
def SwapsStart (affix opposite name other : List Char) : Prop :=
  ∃ rest rest', name = affix ++ rest ∧ other = opposite ++ rest' ∧
    lowerFirst rest = lowerFirst rest'

/-- The names end in the two sides of a rule, but for the case of their first letters, and agree
before them. -/
def SwapsEnd (affix opposite name other : List Char) : Prop :=
  ∃ stem tail tail', name = stem ++ tail ∧ other = stem ++ tail' ∧
    lowerFirst tail = lowerFirst affix ∧ lowerFirst tail' = lowerFirst opposite

/-- A swap at the start of names is undone by the reversed rule. -/
theorem SwapsStart.symm (h : SwapsStart affix opposite name other) :
    SwapsStart opposite affix other name := by
  obtain ⟨rest, rest', hname, hother, hrest⟩ := h
  exact ⟨rest', rest, hother, hname, hrest.symm⟩

/-- A swap at the end of names is undone by the reversed rule. -/
theorem SwapsEnd.symm (h : SwapsEnd affix opposite name other) :
    SwapsEnd opposite affix other name := by
  obtain ⟨stem, tail, tail', hname, hother, htail, htail'⟩ := h
  exact ⟨stem, tail', tail, hother, hname, htail', htail⟩

/-- A rule for the start of names offers what it swaps. -/
theorem mem_prefixCandidates_iff (hname : IsAscii name) (hother : IsAscii other) :
    other ∈ prefixCandidates affix opposite name ↔ SwapsStart affix opposite name other := by
  constructor
  · intro hmem
    rcases startOffers_iff.2 (rfl : prefixCandidates affix opposite name = _) with
      ⟨rest, rfl, hoffers⟩ | ⟨-, hoffers⟩
    · rw [hoffers, List.mem_pair] at hmem
      have hrest := (isAscii_append.1 hname).2
      obtain ⟨rest', rfl, hcase⟩ : ∃ rest', other = opposite ++ rest' ∧
          (rest' = lowerFirst rest ∨ rest' = upperFirst rest) := by
        rcases hmem with rfl | rfl
        · exact ⟨_, rfl, Or.inl rfl⟩
        · exact ⟨_, rfl, Or.inr rfl⟩
      have hrest' := (isAscii_append.1 hother).2
      exact ⟨rest, rest', rfl, rfl, ((eq_either_iff hrest hrest').1 hcase).symm⟩
    · simp [hoffers] at hmem
  · rintro ⟨rest, rest', rfl, rfl, hrest⟩
    rw [← startOffers_iff.1 (Or.inl ⟨rest, rfl, rfl⟩), List.mem_pair, List.append_cancel_left_eq,
      List.append_cancel_left_eq]
    exact (eq_either_iff (isAscii_append.1 hname).2 (isAscii_append.1 hother).2).2 hrest.symm

/-- A rule for the end of names offers what it swaps, if both sides are proper. -/
theorem mem_postfixCandidates_iff (haffix : IsAscii affix) (hopposite : IsAscii opposite)
    (hne : affix ≠ []) (hname : IsAscii name) (hother : IsAscii other) :
    other ∈ postfixCandidates affix opposite name ↔ SwapsEnd affix opposite name other := by
  constructor
  · intro hmem
    rcases endOffers_iff.2 (rfl : postfixCandidates affix opposite name = _) with
      ⟨stem, tail, ⟨-, rfl, -, htail⟩, hoffers⟩ | ⟨-, hoffers⟩
    · rw [hoffers, List.mem_pair] at hmem
      obtain ⟨tail', rfl, hcase⟩ : ∃ tail', other = stem ++ tail' ∧
          (tail' = lowerFirst opposite ∨ tail' = upperFirst opposite) := by
        rcases hmem with rfl | rfl
        · exact ⟨_, rfl, Or.inl rfl⟩
        · exact ⟨_, rfl, Or.inr rfl⟩
      have htail' := (isAscii_append.1 hother).2
      exact ⟨stem, tail, tail', rfl, rfl, htail, (eq_either_iff hopposite htail').1 hcase⟩
    · simp [hoffers] at hmem
  · rintro ⟨stem, tail, tail', rfl, rfl, htail, htail'⟩
    have hsize := byteSize_eq_of_lowerFirst haffix (isAscii_append.1 hname).2 htail
    rw [← endOffers_iff.1 (Or.inl ⟨stem, tail, ⟨hne, rfl, hsize, htail⟩, rfl⟩), List.mem_pair,
      List.append_cancel_left_eq, List.append_cancel_left_eq]
    exact (eq_either_iff hopposite (isAscii_append.1 hother).2).2 htail'

end AffixRule

/-! ## All rules -/

namespace AffixRules

/-- All affixes are ASCII, and no rule for the end of names has an empty side. -/
structure IsPlain (rules : AffixRules) : Prop where
  ascii : ∀ rule ∈ rules.prefixes ++ rules.postfixes,
    IsAscii rule.affix.toList ∧ IsAscii rule.negative.toList
  proper : ∀ rule ∈ rules.postfixes, rule.affix ≠ "" ∧ rule.negative ≠ ""

/-- The names are opposites by some reading of a rule. -/
def Swaps (rules : AffixRules) (name other : List Char) : Prop :=
  (∃ p ∈ readings rules.prefixes, AffixRule.SwapsStart p.1 p.2 name other) ∨
    ∃ p ∈ readings rules.postfixes, AffixRule.SwapsEnd p.1 p.2 name other

variable {rules : AffixRules}

/-- Rules are read in both directions. -/
theorem swap_mem_readings {rs : List AffixRule} {p : List Char × List Char}
    (h : p ∈ readings rs) : p.swap ∈ readings rs := by
  obtain ⟨rule, hrule, hp⟩ := List.mem_flatMap.1 h
  refine List.mem_flatMap.2 ⟨rule, hrule, ?_⟩
  rcases List.mem_pair.1 hp with rfl | rfl <;> simp

/-- What the rules swap they swap back. -/
theorem Swaps.symm {name other : List Char} (h : rules.Swaps name other) :
    rules.Swaps other name := by
  rcases h with ⟨p, hp, hswaps⟩ | ⟨p, hp, hswaps⟩
  · exact Or.inl ⟨p.swap, swap_mem_readings hp, hswaps.symm⟩
  · exact Or.inr ⟨p.swap, swap_mem_readings hp, hswaps.symm⟩

/-- What holds of both sides of all rules holds of the first side of each reading. -/
theorem fst_of_mem_readings {P : List Char → Prop} {rs : List AffixRule}
    (hP : ∀ rule ∈ rs, P rule.affix.toList ∧ P rule.negative.toList)
    {p : List Char × List Char} (hp : p ∈ readings rs) : P p.1 := by
  obtain ⟨rule, hrule, hp⟩ := List.mem_flatMap.1 hp
  rcases List.mem_pair.1 hp with rfl | rfl
  · exact (hP rule hrule).1
  · exact (hP rule hrule).2

/-- With plain rules and names, the candidates for a name are its opposites. -/
theorem mem_candidates_iff (hrules : rules.IsPlain) {name other : String}
    (hname : IsAscii name.toList) (hother : IsAscii other.toList) :
    other ∈ rules.candidates name ↔ rules.Swaps name.toList other.toList := by
  have hascii : ∀ p ∈ readings rules.postfixes, IsAscii p.1 := fun p hp =>
    fst_of_mem_readings (fun rule hrule => hrules.ascii rule (List.mem_append_right _ hrule)) hp
  have hproper : ∀ p ∈ readings rules.postfixes, p.1 ≠ [] := fun p hp =>
    fst_of_mem_readings (P := (· ≠ []))
      (fun rule hrule => by simpa using hrules.proper rule hrule) hp
  have hmem : other ∈ rules.candidates name ↔
      (∃ p ∈ readings rules.prefixes, other.toList ∈ prefixCandidates p.1 p.2 name.toList) ∨
      ∃ p ∈ readings rules.postfixes, other.toList ∈ postfixCandidates p.1 p.2 name.toList := by
    have hlist : other ∈ rules.candidates name ↔ other.toList ∈
        rules.prefixes.flatMap (·.candidates prefixCandidates name.toList) ++
          rules.postfixes.flatMap (·.candidates postfixCandidates name.toList) := by
      rw [candidates, List.mem_map]
      constructor
      · rintro ⟨cs, hcs, rfl⟩
        rwa [String.toList_ofList]
      · exact fun hcs => ⟨_, hcs, String.ofList_toList⟩
    rw [hlist, flatMap_candidates, flatMap_candidates, List.mem_append]
    simp [List.mem_flatten]
  rw [hmem, Swaps]
  refine or_congr ?_ ?_
  · exact exists_congr fun p => and_congr_right fun _ =>
      AffixRule.mem_prefixCandidates_iff hname hother
  · refine exists_congr fun p => and_congr_right fun hp => ?_
    have hopposite : IsAscii p.2 := hascii p.swap (swap_mem_readings hp)
    exact AffixRule.mem_postfixCandidates_iff (hascii p hp) hopposite (hproper p hp) hname hother

end AffixRules

/-! ## Looking up both names -/

namespace Resolver

/-- A new resolver knows nothing. -/
theorem known_new (rules : AffixRules) (name : String) :
    ({ rules } : Resolver).known name = none := rfl

/-- The names that are tried for a name, when none of them is an action. -/
def tried (rules : AffixRules) (name : String) : List String :=
  ((({ rules } : Resolver).resolveM name (recorded fun _ => false)).run []).2

/-- A new resolver tries the candidates of the rules. -/
theorem tried_eq (rules : AffixRules) (name : String) :
    tried rules name = rules.candidates name := by
  have hall : ∀ names : List String, upToHit (fun _ => false) names = names := fun names => by
    have htake : names.takeWhile (fun _ => true) = names := List.takeWhile_eq_self_iff.2 (by simp)
    simp [upToHit, htake]
  rw [tried, run_resolveM_recorded, questions, known_new]
  exact hall _

/-- A name is found if it is among the candidates and the only action. -/
theorem resolve_new_only {rules : AffixRules} {name other : String} :
    (({ rules } : Resolver).resolve name (· == other)).1 = some other ↔
      other ∈ rules.candidates name := by
  rw [resolve_fst, known_new, Option.none_or]
  refine ⟨List.mem_of_find?_eq_some, fun hmem => ?_⟩
  obtain ⟨x, hx⟩ : ∃ x, (rules.candidates name).find? (· == other) = some x := by
    rw [← Option.isSome_iff_exists, List.find?_isSome]
    exact ⟨other, hmem, beq_self_eq_true other⟩
  obtain rfl : x = other := by simpa using List.find?_some hx
  exact hx

/-- With plain rules, one ASCII name is tried for another if and only if that is tried for it. So a
name that is found as an opposite finds the name it was found for. -/
theorem tried_comm (rules : AffixRules) (hrules : rules.IsPlain) (a b : String)
    (ha : IsAscii a.toList) (hb : IsAscii b.toList) :
    (b ∈ tried rules a ↔ a ∈ tried rules b) ∧
      ∀ named, (({ rules } : Resolver).resolve a named).1 = some b →
        (({ rules } : Resolver).resolve b (· == a)).1 = some a := by
  have hcomm : b ∈ rules.candidates a ↔ a ∈ rules.candidates b := by
    rw [AffixRules.mem_candidates_iff hrules ha hb, AffixRules.mem_candidates_iff hrules hb ha]
    exact ⟨AffixRules.Swaps.symm, AffixRules.Swaps.symm⟩
  refine ⟨by rwa [tried_eq, tried_eq], fun named hfound => ?_⟩
  rw [resolve_fst, known_new, Option.none_or] at hfound
  exact resolve_new_only.2 (hcomm.1 (List.mem_of_find?_eq_some hfound))

/-- The standard rules are plain; `fadeOut` is tried for `fadeIn`, and `fadeIn` for `fadeOut`. -/
theorem tried_comm_fade : AffixRules.standard.IsPlain ∧
    IsAscii "fadeIn".toList ∧ IsAscii "fadeOut".toList ∧
    "fadeOut" ∈ tried AffixRules.standard "fadeIn" ∧
    "fadeIn" ∈ tried AffixRules.standard "fadeOut" := by
  have hplain : AffixRules.standard.IsPlain := ⟨by decide +kernel, by decide +kernel⟩
  have hin : IsAscii "fadeIn".toList := by decide +kernel
  have hout : IsAscii "fadeOut".toList := by decide +kernel
  have htried : "fadeOut" ∈ tried AffixRules.standard "fadeIn" := by
    rw [tried_eq]
    decide +kernel
  exact ⟨hplain, hin, hout, htried,
    (tried_comm AffixRules.standard hplain "fadeIn" "fadeOut" hin hout).1.1 htried⟩

/-- An empty ending is put on a name and not taken off. -/
example : "fade" ∈ AffixRules.candidates { postfixes := [⟨"", "out"⟩] } "fadeout" ∧
    AffixRules.candidates { postfixes := [⟨"", "out"⟩] } "fade" = [] := by
  decide +kernel

end Resolver

end FormRules
