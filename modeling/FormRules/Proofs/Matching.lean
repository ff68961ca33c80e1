import FormRules.Pattern.Basic
import Mathlib.Logic.Function.Iterate

/-!
# What a pattern matches

`Pattern.Matches` says which stretches of a text a pattern matches, one form of pattern after the
other; a repetition matches as many stretches in a row as its bounds allow. `Pattern.ends` computes
with sets of positions and goes through a repetition in rounds, of which there are only so many. It
finds the ends of all these stretches all the same (`Pattern.mem_ends`): no stretch ends before it
starts, so the ones that get nowhere can be left out of a row, and then there are no more of them
than the text has characters.
-/

namespace FormRules.Pattern

/-! ## Stretches in a row -/

/-- From `i` to `j` by `n` steps in a row. -/
def InSteps (R : Nat → Nat → Prop) : Nat → Nat → Nat → Prop
  | 0, i, j => i = j
  | n + 1, i, j => ∃ k, InSteps R n i k ∧ R k j

/-- The pattern matches the stretch of the text that starts at `i` and ends before `j`. Where the
bounds of a repetition are out of order, which no pattern that is read has, the lower one counts. -/
def Matches (text : Array Char) : Pattern → Nat → Nat → Prop
  | empty, i, j => i = j
  | set s, i, j => (∃ c, text[i]? = some c ∧ s.has c = true) ∧ j = i + 1
  | anchor a, i, j => a.holds (if i = 0 then none else text[i - 1]?) text[i]? = true ∧ i = j
  | seq p q, i, j => ∃ k, p.Matches text i k ∧ q.Matches text k j
  | alt p q, i, j => p.Matches text i j ∨ q.Matches text i j
  | loop p least most, i, j =>
    ∃ n, least ≤ n ∧ (∀ m ∈ most, n ≤ max least m) ∧ InSteps (p.Matches text) n i j

/-- The pattern matches the whole text. -/
def Spans (p : Pattern) (text : List Char) : Prop := p.Matches text.toArray 0 text.length

namespace InSteps

variable {R : Nat → Nat → Prop} {m n i j k : Nat}

theorem append (h : InSteps R m i j) (h' : InSteps R n j k) : InSteps R (m + n) i k := by
  induction n generalizing k with
  | zero => exact h' ▸ h
  | succ n ih =>
    obtain ⟨l, hl, hk⟩ := h'
    exact ⟨l, ih hl, hk⟩

theorem split (h : InSteps R (m + n) i k) : ∃ j, InSteps R m i j ∧ InSteps R n j k := by
  induction n generalizing k with
  | zero => exact ⟨k, h, rfl⟩
  | succ n ih =>
    obtain ⟨l, hl, hk⟩ := h
    obtain ⟨j, hj, hjl⟩ := ih hl
    exact ⟨j, hj, l, hjl, hk⟩

/-- Steps that go forward stay in a range that single steps do not leave. -/
theorem bounds {size : Nat} (hR : ∀ i j, i ≤ size → R i j → i ≤ j ∧ j ≤ size) (hi : i ≤ size)
    (h : InSteps R n i j) : i ≤ j ∧ j ≤ size := by
  induction n generalizing j with
  | zero => exact ⟨Nat.le_of_eq h, h ▸ hi⟩
  | succ n ih =>
    obtain ⟨k, hk, hkj⟩ := h
    obtain ⟨hik, hks⟩ := ih hk
    obtain ⟨hkj, hjs⟩ := hR k j hks hkj
    exact ⟨Nat.le_trans hik hkj, hjs⟩

/-- Steps that get nowhere can be left out. -/
theorem shorten {size : Nat} (hR : ∀ i j, i ≤ size → R i j → i ≤ j ∧ j ≤ size) (hi : i ≤ size)
    (h : InSteps R n i j) : ∃ m, m ≤ n ∧ m ≤ j - i ∧ InSteps R m i j := by
  induction n generalizing j with
  | zero => exact ⟨0, Nat.le_refl 0, Nat.zero_le _, h⟩
  | succ n ih =>
    obtain ⟨k, hk, hkj⟩ := h
    obtain ⟨m, hmn, hmk, hm⟩ := ih hk
    obtain ⟨hik, hks⟩ := bounds hR hi hk
    obtain ⟨hle, -⟩ := hR k j hks hkj
    rcases Nat.eq_or_lt_of_le hle with rfl | hlt
    · exact ⟨m, by omega, hmk, hm⟩
    · exact ⟨m + 1, by omega, by omega, k, hm, hkj⟩

end InSteps

/-! ## Matches go forward -/

/-- A match ends where it starts or behind, and within the text. -/
theorem Matches.bounds {text : Array Char} {p : Pattern} {i j : Nat} (hi : i ≤ text.size)
    (h : p.Matches text i j) : i ≤ j ∧ j ≤ text.size := by
  induction p generalizing i j with
  | empty => exact ⟨Nat.le_of_eq h, h ▸ hi⟩
  | set s =>
    obtain ⟨⟨c, hc, -⟩, rfl⟩ := h
    have hlt : i < text.size := (Array.getElem?_eq_some_iff.1 hc).1
    omega
  | anchor a => exact ⟨Nat.le_of_eq h.2, h.2 ▸ hi⟩
  | seq p q ihp ihq =>
    obtain ⟨k, hp, hq⟩ := h
    obtain ⟨hik, hk⟩ := ihp hi hp
    obtain ⟨hkj, hj⟩ := ihq hk hq
    exact ⟨Nat.le_trans hik hkj, hj⟩
  | alt p q ihp ihq => exact h.elim (ihp hi) (ihq hi)
  | loop p least most ih =>
    obtain ⟨n, -, -, hsteps⟩ := h
    exact hsteps.bounds (fun _ _ => ih) hi

/-! ## Sets of positions -/

theorem repeated_eq_iterate (f : List Nat → List Nat) (n : Nat) (s : List Nat) :
    repeated f n s = f^[n] s := by
  induction n generalizing s with
  | zero => rfl
  | succ n ih =>
    rw [repeated, Function.iterate_succ_apply]
    split
    · next hfix => rw [hfix, Function.iterate_fixed hfix]
    · exact ih (f s)

/-- On positions up to `size`, `f` goes one step of `R` from any member of a set. -/
def StepsBy (size : Nat) (R : Nat → Nat → Prop) (f : List Nat → List Nat) : Prop :=
  ∀ s, (∀ i ∈ s, i ≤ size) → ∀ j, j ∈ f s ↔ ∃ i ∈ s, R i j

section Rounds

variable {size : Nat} {R : Nat → Nat → Prop} {f : List Nat → List Nat} {s : List Nat} {j n : Nat}

theorem mem_iterate (hR : ∀ i j, i ≤ size → R i j → i ≤ j ∧ j ≤ size) (hf : StepsBy size R f)
    (hs : ∀ i ∈ s, i ≤ size) : j ∈ f^[n] s ↔ ∃ i ∈ s, InSteps R n i j := by
  induction n generalizing j with
  | zero => simp [InSteps]
  | succ n ih =>
    have hbound : ∀ k ∈ f^[n] s, k ≤ size := by
      intro k hk
      obtain ⟨i, hi, hsteps⟩ := ih.1 hk
      exact (hsteps.bounds hR (hs i hi)).2
    rw [Function.iterate_succ_apply', hf _ hbound]
    constructor
    · rintro ⟨k, hk, hkj⟩
      obtain ⟨i, hi, hsteps⟩ := ih.1 hk
      exact ⟨i, hi, k, hsteps, hkj⟩
    · rintro ⟨i, hi, k, hsteps, hkj⟩
      exact ⟨k, ih.2 ⟨i, hi, hsteps⟩, hkj⟩

/-- A gathered set has what up to `n` steps lead to. -/
theorem mem_gathered (hR : ∀ i j, i ≤ size → R i j → i ≤ j ∧ j ≤ size) (hf : StepsBy size R f)
    (hs : ∀ i ∈ s, i ≤ size) : j ∈ gathered f n s ↔ ∃ i ∈ s, ∃ m ≤ n, InSteps R m i j := by
  rw [gathered, repeated_eq_iterate]
  induction n generalizing j with
  | zero => simp [InSteps]
  | succ n ih =>
    have hbound : ∀ k ∈ (fun s => joinPositions s (f s))^[n] s, k ≤ size := by
      intro k hk
      obtain ⟨i, hi, m, -, hsteps⟩ := ih.1 hk
      exact (hsteps.bounds hR (hs i hi)).2
    rw [Function.iterate_succ_apply', mem_joinPositions, hf _ hbound, ih]
    constructor
    · rintro (⟨i, hi, m, hm, hsteps⟩ | ⟨k, hk, hkj⟩)
      · exact ⟨i, hi, m, by omega, hsteps⟩
      · obtain ⟨i, hi, m, hm, hsteps⟩ := ih.1 hk
        exact ⟨i, hi, m + 1, by omega, k, hsteps, hkj⟩
    · rintro ⟨i, hi, m, hm, hsteps⟩
      rcases Nat.lt_or_ge n m with hlt | hle
      · obtain rfl : m = n + 1 := by omega
        obtain ⟨k, hk, hkj⟩ := hsteps
        exact Or.inr ⟨k, ih.2 ⟨i, hi, n, Nat.le_refl n, hk⟩, hkj⟩
      · exact Or.inl ⟨i, hi, m, hle, hsteps⟩

end Rounds

/-- The ends that are computed for a loop are those of its matches: as many rounds as the text has
characters find them all. -/
theorem mem_ends_loop {text : Array Char} {p : Pattern} {least : Nat} {most : Option Nat}
    (h : ∀ {starts : List Nat}, (∀ i ∈ starts, i ≤ text.size) → ∀ {j : Nat},
      j ∈ p.ends text starts ↔ ∃ i ∈ starts, p.Matches text i j)
    {starts : List Nat} (hstarts : ∀ i ∈ starts, i ≤ text.size) {j : Nat} :
    j ∈ (loop p least most).ends text starts ↔
      ∃ i ∈ starts, (loop p least most).Matches text i j := by
  have hR : ∀ i j, i ≤ text.size → p.Matches text i j → i ≤ j ∧ j ≤ text.size :=
    fun _ _ => Matches.bounds
  have hf : StepsBy text.size (p.Matches text) (p.ends text) := fun s hs j => h hs
  have hbound : ∀ k ∈ (p.ends text)^[least] starts, k ≤ text.size := by
    intro k hk
    obtain ⟨i, hi, hsteps⟩ := (mem_iterate hR hf hstarts).1 hk
    exact (hsteps.bounds hR (hstarts i hi)).2
  simp only [ends, repeated_eq_iterate, mem_gathered hR hf hbound]
  constructor
  · rintro ⟨k, hk, m, hm, hsteps⟩
    obtain ⟨i, hi, hfirst⟩ := (mem_iterate hR hf hstarts).1 hk
    refine ⟨i, hi, least + m, by omega, fun most hmost => ?_, hfirst.append hsteps⟩
    obtain rfl := Option.mem_def.1 hmost
    simp only at hm
    omega
  · rintro ⟨i, hi, n, hleast, hmost, hsteps⟩
    obtain ⟨m, rfl⟩ : ∃ m, n = least + m := ⟨n - least, by omega⟩
    obtain ⟨k, hfirst, hrest⟩ := hsteps.split
    obtain ⟨-, hk⟩ := hfirst.bounds hR (hstarts i hi)
    obtain ⟨l, hlm, hlk, hshort⟩ := hrest.shorten hR hk
    obtain ⟨-, hj⟩ := hshort.bounds hR hk
    refine ⟨k, (mem_iterate hR hf hstarts).2 ⟨i, hi, hfirst⟩, l, ?_, hshort⟩
    cases most with
    | none => dsimp only; omega
    | some most =>
      have hle := hmost most rfl
      dsimp only
      omega

/-- The ends that are computed are those of the matches. -/
theorem mem_ends {text : Array Char} {p : Pattern} {starts : List Nat}
    (hstarts : ∀ i ∈ starts, i ≤ text.size) {j : Nat} :
    j ∈ p.ends text starts ↔ ∃ i ∈ starts, p.Matches text i j := by
  induction p generalizing starts j with
  | empty => simp [ends, Matches]
  | set s =>
    simp only [ends, Matches, List.mem_map, List.mem_filter, Option.any_eq_true]
    constructor
    · rintro ⟨i, ⟨hi, hc⟩, rfl⟩
      exact ⟨i, hi, hc, rfl⟩
    · rintro ⟨i, hi, hc, rfl⟩
      exact ⟨i, ⟨hi, hc⟩, rfl⟩
  | anchor a =>
    simp only [ends, Matches, List.mem_filter]
    constructor
    · rintro ⟨hj, ha⟩
      exact ⟨j, hj, ha, rfl⟩
    · rintro ⟨i, hi, ha, rfl⟩
      exact ⟨hi, ha⟩
  | seq p q ihp ihq =>
    have hbound : ∀ k ∈ p.ends text starts, k ≤ text.size := by
      intro k hk
      obtain ⟨i, hi, hp⟩ := (ihp hstarts).1 hk
      exact (hp.bounds (hstarts i hi)).2
    simp only [ends, Matches, ihq hbound, ihp hstarts]
    constructor
    · rintro ⟨k, ⟨i, hi, hp⟩, hq⟩
      exact ⟨i, hi, k, hp, hq⟩
    · rintro ⟨i, hi, k, hp, hq⟩
      exact ⟨k, ⟨i, hi, hp⟩, hq⟩
  | alt p q ihp ihq =>
    simp only [ends, Matches, mem_joinPositions, ihp hstarts, ihq hstarts]
    constructor
    · rintro (⟨i, hi, h⟩ | ⟨i, hi, h⟩)
      · exact ⟨i, hi, Or.inl h⟩
      · exact ⟨i, hi, Or.inr h⟩
    · rintro ⟨i, hi, h | h⟩
      · exact Or.inl ⟨i, hi, h⟩
      · exact Or.inr ⟨i, hi, h⟩
  | loop p least most ih =>
    exact mem_ends_loop ih hstarts

/-- A pattern is found in a text exactly if it matches some stretch of it. -/
theorem isFoundIn_iff {p : Pattern} {text : String} : p.isFoundIn text = true ↔
    ∃ i j, i ≤ text.toList.length ∧ p.Matches text.toList.toArray i j := by
  have hstarts : ∀ i ∈ List.range (text.toList.toArray.size + 1), i ≤ text.toList.toArray.size :=
    fun i hi => Nat.le_of_lt_succ (List.mem_range.1 hi)
  simp only [isFoundIn, Bool.not_eq_true', List.isEmpty_eq_false_iff_exists_mem,
    mem_ends hstarts, List.mem_range, Nat.lt_succ_iff]
  exact exists_comm

/-! ## Patterns between anchors -/

section Ends

variable {text : List Char} {i j : Nat}

theorem matches_textStart (hi : i ≤ text.length) :
    (anchor .textStart).Matches text.toArray i j ↔ i = 0 ∧ j = 0 := by
  rcases Nat.eq_zero_or_pos i with rfl | hpos
  · simp [Matches, Anchor.holds, eq_comm]
  · have hne : i ≠ 0 := Nat.ne_of_gt hpos
    have hlt : i - 1 < text.length := by omega
    simp [Matches, Anchor.holds, hne, hlt]

theorem matches_textEnd (hi : i ≤ text.length) :
    (anchor .textEnd).Matches text.toArray i j ↔ i = text.length ∧ j = text.length := by
  simp only [Matches, Anchor.holds, Option.isNone_iff_eq_none, Array.getElem?_eq_none_iff,
    List.size_toArray]
  omega

end Ends

/-- A pattern between the anchors for the start and the end of the text. -/
def anchored (p : Pattern) : Pattern := .seq (.anchor .textStart) (.seq p (.anchor .textEnd))

/-- A pattern between anchors is found in a text exactly if the pattern matches the whole of it. -/
theorem isFoundIn_anchored {p : Pattern} {text : String} :
    p.anchored.isFoundIn text = true ↔ p.Spans text.toList := by
  rw [isFoundIn_iff]
  constructor
  · rintro ⟨i, j, hi, k, hstart, l, hp, hend⟩
    obtain ⟨rfl, rfl⟩ := (matches_textStart hi).1 hstart
    obtain ⟨rfl, -⟩ := (matches_textEnd (by simpa using (hp.bounds (Nat.zero_le _)).2)).1 hend
    exact hp
  · intro hp
    exact ⟨0, _, Nat.zero_le _, 0, (matches_textStart (Nat.zero_le _)).2 ⟨rfl, rfl⟩, _, hp,
      (matches_textEnd (Nat.le_refl _)).2 ⟨rfl, rfl⟩⟩

end FormRules.Pattern
