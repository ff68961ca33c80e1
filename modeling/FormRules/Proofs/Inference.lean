import FormRules.Proofs.Opposites
import Mathlib.Data.List.Forall2

/-!
# What is tried for an opposite

The affix rules are tables, and what a search makes of them is said here without the search: each
rule is read from affix to negative and from negative to affix, and a reading offers two names or
none (`AffixRule.StartOffers`, `AffixRule.EndOffers`). In the order of the tables these make one
list (`AffixRules.Offers`), and there is exactly one such list for each name, the candidates
(`AffixRules.offers_iff`). A look-up of a name without a known partner asks about this list from its
beginning and stops at the first name that is an action; `Resolver.recorded` keeps the record of
what is asked, and `Resolver.resolve_asks` is the whole account of a look-up.

The end of a name is cut off by the number of bytes of the affix, and only between two characters
(`Text.isSome_cutBytes?_iff`). A letter and its other case may differ in their numbers of bytes, and
then the affix is not recognised: with such a first letter, names that a rule offers are not read
back (`AffixRules.offered_not_recognised`).
-/

namespace FormRules

open Text

/-! ## Cuts -/

namespace Text

variable {cs stem tail : List Char} {n : Nat}

theorem cutBytes?_eq_some_iff :
    cutBytes? cs n = some (stem, tail) ↔ cs = stem ++ tail ∧ byteSize tail = n := by
  refine ⟨cutBytes?_eq_some, ?_⟩
  rintro ⟨rfl, rfl⟩
  induction stem with
  | nil =>
    rw [List.nil_append]
    unfold cutBytes?
    rw [if_pos rfl]
  | cons c stem ih =>
    have hpos := c.utf8Size_pos
    rw [List.cons_append, cutBytes?, if_neg (by simp; omega)]
    simp [ih]

theorem byteSize_eq (cs : List Char) : byteSize cs = (String.ofList cs).utf8ByteSize := by
  induction cs with
  | nil => simp
  | cons c cs ih =>
    rw [byteSize_cons, ih, String.ofList_cons, String.utf8ByteSize_append,
      String.utf8ByteSize_singleton]

/-- A text can be cut before its last bytes if it has that many, and where a character starts. -/
theorem isSome_cutBytes?_iff (s : String) (n : Nat) : (cutBytes? s.toList n).isSome = true ↔
    n ≤ s.utf8ByteSize ∧ String.Pos.Raw.IsValid s ⟨s.utf8ByteSize - n⟩ := by
  rw [String.Pos.Raw.isValid_iff_exists_append, Option.isSome_iff_exists]
  constructor
  · rintro ⟨⟨stem, tail⟩, hcut⟩
    obtain ⟨hs, htail⟩ := cutBytes?_eq_some_iff.1 hcut
    have hs : s = String.ofList stem ++ String.ofList tail := by
      rw [← String.ofList_append, ← hs, String.ofList_toList]
    have hsize : s.utf8ByteSize = (String.ofList stem).utf8ByteSize + n := by
      rw [hs, String.utf8ByteSize_append, ← byteSize_eq tail, htail]
    refine ⟨by omega, _, _, hs, ?_⟩
    rw [hsize, Nat.add_sub_cancel]
    rfl
  · rintro ⟨hle, s₁, s₂, rfl, hpos⟩
    have hsize : (s₁ ++ s₂).utf8ByteSize - n = s₁.utf8ByteSize :=
      congrArg String.Pos.Raw.byteIdx hpos
    refine ⟨(s₁.toList, s₂.toList), cutBytes?_eq_some_iff.2 ⟨String.toList_append, ?_⟩⟩
    rw [String.utf8ByteSize_append] at hsize hle
    rw [byteSize_eq, String.ofList_toList]
    omega

end Text

/-! ## Offers -/

namespace AffixRule

/-- What is offered for a name where a rule for the start of names is read from `affix` to
`opposite`: if the name starts with the affix, the opposite and the rest, in both cases of its first
letter. -/
def StartOffers (affix opposite name : List Char) (offers : List (List Char)) : Prop :=
  (∃ rest, name = affix ++ rest ∧
    offers = [opposite ++ lowerFirst rest, opposite ++ upperFirst rest]) ∨
  (∀ rest, name ≠ affix ++ rest) ∧ offers = []

/-- The name ends in the affix, but for the case of its first letter, and in as many bytes. The
empty affix ends no name. -/
def IsEnding (affix stem tail name : List Char) : Prop :=
  affix ≠ [] ∧ name = stem ++ tail ∧ byteSize tail = byteSize affix ∧
    lowerFirst tail = lowerFirst affix

/-- What is offered for a name where a rule for the end of names is read from `affix` to `opposite`:
if the name ends in the affix, what is before it and the opposite, in both cases of its first
letter. -/
def EndOffers (affix opposite name : List Char) (offers : List (List Char)) : Prop :=
  (∃ stem tail, IsEnding affix stem tail name ∧
    offers = [stem ++ lowerFirst opposite, stem ++ upperFirst opposite]) ∨
  (∀ stem tail, ¬ IsEnding affix stem tail name) ∧ offers = []

variable {affix opposite name : List Char} {offers : List (List Char)}

theorem startOffers_iff : StartOffers affix opposite name offers ↔
    offers = prefixCandidates affix opposite name := by
  unfold StartOffers prefixCandidates
  cases hafter : after? affix name with
  | some rest =>
    obtain rfl := after?_eq_some_iff.1 hafter
    simp [bothCases]
  | none =>
    have hnone : ∀ rest, name ≠ affix ++ rest := fun rest heq => by
      simp [after?_eq_some_iff.2 heq] at hafter
    simp [hnone]

theorem endOffers_iff : EndOffers affix opposite name offers ↔
    offers = postfixCandidates affix opposite name := by
  have hending : ∀ stem tail, IsEnding affix stem tail name ↔ affix ≠ [] ∧
      cutBytes? name (byteSize affix) = some (stem, tail) ∧ lowerFirst tail = lowerFirst affix := by
    intro stem tail
    rw [cutBytes?_eq_some_iff, and_assoc]
    rfl
  simp only [EndOffers, hending, postfixCandidates]
  by_cases hempty : affix = []
  · simp [hempty]
  · cases hcut : cutBytes? name (byteSize affix) with
    | none => simp [hempty]
    | some p =>
      obtain ⟨stem, tail⟩ := p
      by_cases hfirst : lowerFirst tail = lowerFirst affix
      · simp [hempty, hfirst, bothCases]
      · have hnone : ∀ s t, ¬ (some (stem, tail) = some (s, t) ∧ lowerFirst t = lowerFirst affix) := by
          rintro s t ⟨heq, hfirst'⟩
          obtain ⟨-, rfl⟩ := Prod.mk.inj (Option.some.inj heq)
          exact hfirst hfirst'
        simp only [hnone, and_false, false_and, exists_false, not_false_eq_true, implies_true,
          true_and, false_or, hempty, hfirst, if_false]

end AffixRule

namespace AffixRules

/-- Each rule from affix to negative and from negative to affix. -/
def readings (rules : List AffixRule) : List (List Char × List Char) :=
  rules.flatMap fun rule =>
    [(rule.affix.toList, rule.negative.toList), (rule.negative.toList, rule.affix.toList)]

/-- The names that are offered for a name: by the readings of the rules for the start of names in
order, and then by those for the end. -/
def Offers (rules : AffixRules) (name : String) (offers : List String) : Prop :=
  ∃ starts ends,
    List.Forall₂ (fun p => AffixRule.StartOffers p.1 p.2 name.toList)
      (readings rules.prefixes) starts ∧
    List.Forall₂ (fun p => AffixRule.EndOffers p.1 p.2 name.toList)
      (readings rules.postfixes) ends ∧
    offers = (starts.flatten ++ ends.flatten).map String.ofList

theorem flatMap_candidates (offer : List Char → List Char → List Char → List (List Char))
    (rules : List AffixRule) (name : List Char) :
    rules.flatMap (·.candidates offer name) =
      ((readings rules).map fun p => offer p.1 p.2 name).flatten := by
  rw [← List.flatMap_def, readings, List.flatMap_assoc]
  simp [AffixRule.candidates]

theorem forall₂_iff_eq_map {α β : Type} {R : α → β → Prop} {f : α → β}
    (hR : ∀ x y, R x y ↔ y = f x) {xs : List α} {ys : List β} :
    List.Forall₂ R xs ys ↔ ys = xs.map f := by
  induction xs generalizing ys with
  | nil => simp
  | cons x xs ih => cases ys <;> simp [hR, ih]

/-- For each name there is one list of offers. -/
theorem offers_iff {rules : AffixRules} {name : String} {offers : List String} :
    rules.Offers name offers ↔ offers = rules.candidates name := by
  have hstarts : ∀ (p : List Char × List Char) offers,
      AffixRule.StartOffers p.1 p.2 name.toList offers ↔
        offers = prefixCandidates p.1 p.2 name.toList := fun _ _ => AffixRule.startOffers_iff
  have hends : ∀ (p : List Char × List Char) offers,
      AffixRule.EndOffers p.1 p.2 name.toList offers ↔
        offers = postfixCandidates p.1 p.2 name.toList := fun _ _ => AffixRule.endOffers_iff
  rw [candidates, flatMap_candidates, flatMap_candidates]
  simp only [Offers, forall₂_iff_eq_map hstarts, forall₂_iff_eq_map hends, exists_and_left,
    exists_eq_left]

end AffixRules

/-! ## What is asked -/

namespace Resolver

/-- Tells whether a name is an action, and keeps a record of what was asked. -/
def recorded (named : String → Bool) (name : String) : StateM (List String) Bool := do
  modify (· ++ [name])
  return named name

/-- The names up to the first that is an action, and that one. -/
def upToHit (named : String → Bool) (names : List String) : List String :=
  names.takeWhile (fun name => !named name) ++ (names.find? named).toList

theorem run_findM?_recorded (named : String → Bool) (names asked : List String) :
    (names.findM? (recorded named)).run asked =
      (names.find? named, asked ++ upToHit named names) := by
  induction names generalizing asked with
  | nil => exact congrArg (Prod.mk none) (List.append_nil asked).symm
  | cons name names ih =>
    have hstep : ((name :: names).findM? (recorded named)).run asked =
        if named name then (some name, asked ++ [name])
        else (names.findM? (recorded named)).run (asked ++ [name]) := by
      have hask : (recorded named name).run asked = (named name, asked ++ [name]) := rfl
      rw [List.findM?, StateT.run_bind, hask]
      cases named name <;> rfl
    rw [hstep]
    cases hname : named name with
    | true => simp [upToHit, hname]
    | false => simp [ih, upToHit, hname]

/-- The names that a look-up asks about. -/
def questions (r : Resolver) (name : String) (named : String → Bool) : List String :=
  match r.known name with
  | some _ => []
  | none => upToHit named (r.rules.candidates name)

/-- The record of a look-up does not change its result. -/
theorem run_resolveM_recorded (r : Resolver) (name : String) (named : String → Bool) :
    (r.resolveM name (recorded named)).run [] = (r.resolve name named, r.questions name named) := by
  rw [resolve_eq, questions, resolveM]
  cases r.known name with
  | some partner => rfl
  | none =>
    dsimp only
    rw [AffixRules.search_eq, StateT.run_bind, run_findM?_recorded]
    cases (r.rules.candidates name).find? named <;> rfl

/-- What a search leaves: it is counted, and what it found is stored in both directions. -/
structure Searched (r : Resolver) (name : String) (found : Option String) (s : Resolver) : Prop where
  rules : s.rules = r.rules
  searches : s.searches = r.searches + 1
  partner : ∀ x, s.partner x = (found.bind (other x name)).or (r.partner x)

theorem exists_searched {r : Resolver} {name : String} (named : String → Bool)
    (h : r.known name = none) : ∃ s notes, r.resolve name named =
      ((r.rules.candidates name).find? named, s, notes) ∧
      r.Searched name ((r.rules.candidates name).find? named) s := by
  rw [resolve_eq, h]
  dsimp only
  cases (r.rules.candidates name).find? named with
  | none => exact ⟨_, _, rfl, rfl, rfl, fun _ => rfl⟩
  | some b =>
    exact ⟨_, _, rfl, rfl, rfl, partner_register { r with searches := r.searches + 1 } name b⟩

/-- A look-up gives a known partner without a question and without a search. Otherwise it counts a
search and asks, in order and up to the first hit, about the names that the rules offer, of which
there is one list. The hit is the answer and stored in both directions; without one nothing but the
count changes. Names are cut where a character starts, whatever their affixes. -/
theorem resolve_asks (r : Resolver) (name : String) (named : String → Bool) :
    (∀ offers, r.rules.Offers name offers ↔ offers = r.rules.candidates name) ∧
    (∀ affix : String, (cutBytes? name.toList (byteSize affix.toList)).isSome = true ↔
      affix.utf8ByteSize ≤ name.utf8ByteSize ∧
        String.Pos.Raw.IsValid name ⟨name.utf8ByteSize - affix.utf8ByteSize⟩) ∧
    ∃ asked, (r.resolveM name (recorded named)).run [] = (r.resolve name named, asked) ∧
      match r.known name with
      | some partner => partner ≠ "" ∧ asked = [] ∧
        r.resolve name named = (some partner, r, [])
      | none => asked = upToHit named (r.rules.candidates name) ∧
        ∃ s notes, r.resolve name named =
          ((r.rules.candidates name).find? named, s, notes) ∧
          r.Searched name ((r.rules.candidates name).find? named) s := by
  refine ⟨fun offers => AffixRules.offers_iff, fun affix => ?_, r.questions name named,
    run_resolveM_recorded r name named, ?_⟩
  · rw [isSome_cutBytes?_iff, byteSize_eq, String.ofList_toList]
  · rw [questions]
    cases hknown : r.known name with
    | some partner =>
      have hne : partner ≠ "" := by simpa using (Option.filter_eq_some_iff.1 hknown).2
      exact ⟨hne, rfl, resolve_of_known hknown named⟩
    | none => exact ⟨rfl, exists_searched named hknown⟩

end Resolver

/-! ## Where the other case is longer -/

/-- A rule for the end of names whose affix starts with a letter of three bytes, two in the other
case. -/
def strokeRules : AffixRules where
  postfixes := [⟨"ⱥn", "out"⟩]

/-- The name ends in the affix, but for the case of its first letter, and it is offered itself for
another name. Still nothing is offered for it, as it does not end in as many bytes. -/
theorem AffixRules.offered_not_recognised :
    "fadeȺn".toList = "fade".toList ++ "Ⱥn".toList ∧
      lowerFirst "Ⱥn".toList = lowerFirst "ⱥn".toList ∧
      strokeRules.candidates "fadeout" = ["fadeⱥn", "fadeȺn"] ∧
      strokeRules.candidates "fadeȺn" = [] := by
  decide +kernel

end FormRules
