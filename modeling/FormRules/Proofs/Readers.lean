import FormRules.Pattern.Parser
import Mathlib.Data.List.TakeWhile

/-!
# Reading with something behind

A pattern that is to match whole texts is put into a group, as text, and then read. Here every
reader is given the same text twice: with the `closing` of that group behind it, and by itself. What
it makes of the first `Tracks` what it makes of the second. If it stops before the closing, it has
read the same with and without it. Otherwise it has taken the closing parenthesis for a part of the
text, as an escape, a comment or an open class does, and at most the `$` is left, with which no
group can be closed any more.

A reader that goes on from another is covered by `Tracks.bind`, so each reader needs one lemma for
what it leaves and one for what it tracks. This module has the ones for blanks and escapes.
-/

namespace FormRules.Pattern

open Text

/-- What follows a pattern that is to match whole texts. -/
def closing : List Char := [')', '$']

/-- A reader that was given `cs` leaves an end of it. -/
def Leaves {α : Type} (cs : List Char) (result : Except SyntaxError (α × List Char)) : Prop :=
  ∀ x rest, result = .ok (x, rest) → rest <:+ cs

/-- `alone` is what a reader makes of a text, and `inGroup` what it makes of the text with the
closing behind it. They agree, unless the reader has read into the closing. -/
def Tracks {α : Type} (inGroup alone : Except SyntaxError (α × List Char)) : Prop :=
  ∀ x rest, inGroup = .ok (x, rest) →
    rest <:+ ['$'] ∨ ∃ rest', rest = rest' ++ closing ∧ alone = .ok (x, rest')

section Combine

variable {α β : Type} {cs ds : List Char} {e : SyntaxError}

theorem Leaves.error : Leaves cs (.error e : Except SyntaxError (α × List Char)) := by
  intro x rest h
  cases h

theorem Leaves.ok {x : α} (h : ds <:+ cs) : Leaves cs (.ok (x, ds)) := by
  rintro y rest ⟨⟩
  exact h

/-- What is left of an end of a text is left of the text. -/
theorem Leaves.mono {R : Except SyntaxError (α × List Char)} (h : Leaves ds R) (hds : ds <:+ cs) :
    Leaves cs R :=
  fun x rest hR => (h x rest hR).trans hds

/-- A reader that goes on where another stops leaves an end of the text. -/
theorem Leaves.bind {R : Except SyntaxError (α × List Char)}
    {f : α × List Char → Except SyntaxError (β × List Char)} (hR : Leaves cs R)
    (hf : ∀ x rest, Leaves rest (f (x, rest))) : Leaves cs (R >>= f) := by
  rcases R with e | ⟨x, rest⟩
  · exact Leaves.error
  · exact (hf x rest).mono (hR x rest rfl)

/-- A reader that fails with the closing behind it tracks anything. -/
theorem Tracks.error {R : Except SyntaxError (α × List Char)} : Tracks (.error e) R := by
  intro x rest h
  cases h

/-- A reader that stops before the closing tracks one that stops at the end of the text. -/
theorem Tracks.ok {x : α} : Tracks (.ok (x, cs ++ closing)) (.ok (x, cs)) := by
  rintro y rest ⟨⟩
  exact Or.inr ⟨cs, rfl, rfl⟩

theorem Tracks.nil {x : α} : Tracks (.ok (x, closing)) (.ok (x, [])) := @Tracks.ok α [] x

theorem Tracks.cons {c : Char} {x : α} :
    Tracks (.ok (x, c :: (cs ++ closing))) (.ok (x, c :: cs)) := @Tracks.ok α (c :: cs) x

/-- A reader that has taken the parenthesis of the closing tracks anything. -/
theorem Tracks.of_leaves {R R' : Except SyntaxError (α × List Char)} (h : Leaves ['$'] R) :
    Tracks R R' :=
  fun x rest hR => Or.inl (h x rest hR)

/-- A reader that goes on tracks if its parts do: where the first has read into the closing, the
second leaves no more than that. -/
theorem Tracks.bind {R R' : Except SyntaxError (α × List Char)}
    {f f' : α × List Char → Except SyntaxError (β × List Char)} (hR : Tracks R R')
    (hleaves : ∀ x rest, Leaves rest (f (x, rest)))
    (hf : ∀ x rest, Tracks (f (x, rest ++ closing)) (f' (x, rest))) :
    Tracks (R >>= f) (R' >>= f') := by
  rcases R with e | ⟨x, rest⟩
  · exact Tracks.error
  · rcases hR x rest rfl with hover | ⟨rest', rfl, rfl⟩
    · exact Tracks.of_leaves ((hleaves x rest).mono hover)
    · exact hf x rest'

/-- What goes on from ends of a text may be changed elsewhere. -/
theorem Leaves.bind_congr {R : Except SyntaxError (α × List Char)}
    {f g : α × List Char → Except SyntaxError (β × List Char)} (hR : Leaves cs R)
    (h : ∀ x rest, rest.length ≤ cs.length → f (x, rest) = g (x, rest)) : R >>= f = R >>= g := by
  rcases R with e | ⟨x, rest⟩
  · rfl
  · exact h x rest (hR x rest rfl).length_le

/-- To change what was read is to go on with a reader that reads nothing. -/
theorem map_eq_bind {R : Except SyntaxError α} {f : α → β} :
    R.map f = R >>= fun p => .ok (f p) := by
  cases R <;> rfl

/-- What was read may be changed. -/
theorem Leaves.map {R : Except SyntaxError (α × List Char)} {f : α × List Char → β × List Char}
    (hR : Leaves cs R) (hf : ∀ x rest, (f (x, rest)).2 <:+ rest) : Leaves cs (R.map f) := by
  rw [map_eq_bind]
  exact hR.bind fun x rest => Leaves.ok (hf x rest)

/-- What was read may be changed on both sides. -/
theorem Tracks.map {R R' : Except SyntaxError (α × List Char)}
    {f f' : α × List Char → β × List Char} (hR : Tracks R R')
    (hleaves : ∀ x rest, (f (x, rest)).2 <:+ rest)
    (hf : ∀ x rest, Tracks (.ok (f (x, rest ++ closing))) (.ok (f' (x, rest)))) :
    Tracks (R.map f) (R'.map f') := by
  rw [map_eq_bind, map_eq_bind]
  exact hR.bind (fun x rest => Leaves.ok (hleaves x rest)) hf

end Combine

/-! ## Blanks and comments -/

/-- Blanks and comments are taken from the front. -/
theorem Flags.skip_suffix (flags : Flags) (cs : List Char) : flags.skip cs <:+ cs := by
  have hboth : flags.skip cs <:+ cs ∧ Flags.skip.skipComment flags cs <:+ cs := by
    induction cs with
    | nil => exact ⟨List.suffix_rfl, List.suffix_rfl⟩
    | cons c cs ih =>
      rw [Flags.skip, Flags.skip.skipComment]
      constructor
      · split
        · exact List.suffix_rfl
        · split
          · exact ih.1.trans (List.suffix_cons c cs)
          · split
            · exact ih.2.trans (List.suffix_cons c cs)
            · exact List.suffix_rfl
      · split
        · exact ih.1.trans (List.suffix_cons c cs)
        · exact ih.2.trans (List.suffix_cons c cs)
  exact hboth.1

/-- Blanks and comments are the same in a group, but a comment that is open at the end of the text
goes on through the closing. -/
theorem Flags.skip_closing (flags : Flags) (cs : List Char) :
    flags.skip (cs ++ closing) = flags.skip cs ++ closing ∨
      flags.skip (cs ++ closing) = [] ∧ flags.skip cs = [] := by
  have hboth : (flags.skip (cs ++ closing) = flags.skip cs ++ closing ∨
        flags.skip (cs ++ closing) = [] ∧ flags.skip cs = []) ∧
      (Flags.skip.skipComment flags (cs ++ closing) =
          Flags.skip.skipComment flags cs ++ closing ∨
        Flags.skip.skipComment flags (cs ++ closing) = [] ∧
          Flags.skip.skipComment flags cs = []) := by
    induction cs with
    | nil =>
      constructor
      · left
        cases h : flags.ignoreSpace <;> simp [closing, Flags.skip, h, isBlank]
      · right
        simp [closing, Flags.skip.skipComment]
    | cons c cs ih =>
      simp only [List.cons_append, Flags.skip, Flags.skip.skipComment]
      constructor
      · split
        · exact Or.inl rfl
        · split
          · exact ih.1
          · split
            · exact ih.2
            · exact Or.inl rfl
      · split
        · exact ih.1
        · exact ih.2
  exact hboth.1

/-- Characters of one kind are read up to the first of another kind, or on into the closing. -/
theorem run_closing (p : Char → Bool) (cs : List Char) :
    (cs ++ closing).takeWhile p = cs.takeWhile p ∧
        (cs ++ closing).dropWhile p = cs.dropWhile p ++ closing ∧ cs.dropWhile p ≠ [] ∨
      (cs ++ closing).takeWhile p = cs ++ closing.takeWhile p ∧
        (cs ++ closing).dropWhile p = closing.dropWhile p ∧ cs.dropWhile p = [] := by
  induction cs with
  | nil => exact Or.inr ⟨rfl, rfl, rfl⟩
  | cons c cs ih =>
    by_cases hc : p c = true
    · simpa [hc] using ih
    · simp [hc]

/-- Characters of a class that does not have the closing are read as if it were not there. -/
theorem run_of_closing {p : Char → Bool} (hp : p ')' = false) (cs : List Char) :
    (cs ++ closing).takeWhile p = cs.takeWhile p ∧
      (cs ++ closing).dropWhile p = cs.dropWhile p ++ closing := by
  have hclosing : closing.takeWhile p = [] ∧ closing.dropWhile p = closing := by
    simp [closing, hp]
  rcases run_closing p cs with ⟨htake, hdrop, -⟩ | ⟨htake, hdrop, hnil⟩
  · exact ⟨htake, hdrop⟩
  · refine ⟨?_, by rw [hdrop, hclosing.2, hnil, List.nil_append]⟩
    have hall := List.takeWhile_append_dropWhile (p := p) (l := cs)
    rw [hnil, List.append_nil] at hall
    rw [htake, hclosing.1, List.append_nil, hall]

/-! ## Escapes -/

/-- No character code is spelled with a closing parenthesis. -/
theorem hexChar?_eq_none {ds : List Char} (h : ')' ∈ ds) : hexChar? ds = none := by
  have hfold : ∀ n, ds.foldlM (fun n d => (hexDigit? d).map (16 * n + ·)) n = none := by
    induction ds with
    | nil => simp at h
    | cons d ds ih =>
      intro n
      rw [List.foldlM_cons]
      rcases List.mem_cons.1 h with rfl | h
      · rfl
      · cases hexDigit? d with
        | none => rfl
        | some m => exact ih h _
  rw [hexChar?, hfold]
  rfl

/-- The code of an escape is taken from the front. -/
theorem leaves_readCode (width : Nat) (cs : List Char) : Leaves cs (readCode width cs) := by
  unfold readCode
  split
  next ds rest heq =>
  have hrest : rest.tail <:+ cs := by
    split at heq
    · next cs =>
      obtain ⟨-, rfl⟩ := Prod.mk.inj heq
      exact (List.tail_suffix _).trans ((List.dropWhile_suffix _).trans (List.suffix_cons _ cs))
    · obtain ⟨-, rfl⟩ := Prod.mk.inj heq
      exact List.drop_suffix width _
  dsimp only
  split
  · split
    · exact Leaves.ok hrest
    · exact Leaves.error
  · exact Leaves.error

/-- A code in braces. -/
theorem readCode_braced (width : Nat) (ds : List Char) : readCode width ('\x7b' :: ds) =
    match hexChar? (ds.takeWhile (· != '\x7d')), ds.dropWhile (· != '\x7d') with
    | some c, _ :: rest => .ok (.literal c, rest)
    | _, _ => .error .badEscape := by
  cases hchar : hexChar? (ds.takeWhile (· != '\x7d')) with
  | none => simp [readCode, hchar]
  | some c => cases hrest : ds.dropWhile (· != '\x7d') <;> simp [readCode, hchar, hrest]

/-- A code of so many digits. -/
theorem readCode_fixed (width : Nat) {cs : List Char} (h : cs.head? ≠ some '\x7b') :
    readCode width cs = match hexChar? (cs.take width) with
    | some c =>
      if (cs.take width).length = width then .ok (.literal c, cs.drop width)
      else .error .badEscape
    | none => .error .badEscape := by
  unfold readCode
  split
  next ds rest heq =>
  split at heq
  · exact absurd rfl h
  · obtain ⟨rfl, rfl⟩ := Prod.mk.inj heq
    simp only [h, false_or]
    cases hexChar? (cs.take width) <;> rfl

/-- The code of an escape does not see the closing, for that has no digits. -/
theorem tracks_readCode (width : Nat) (cs : List Char) :
    Tracks (readCode width (cs ++ closing)) (readCode width cs) := by
  by_cases hbrace : cs.head? = some '\x7b'
  · obtain ⟨ds, rfl⟩ := List.head?_eq_some_iff.1 hbrace
    rw [List.cons_append, readCode_braced, readCode_braced]
    rcases run_closing (· != '\x7d') ds with ⟨htake, hdrop, hne⟩ | ⟨htake, -⟩
    · obtain ⟨c, rest, hrest⟩ := List.exists_cons_of_ne_nil hne
      rw [htake, hdrop, hrest]
      cases hexChar? (ds.takeWhile (· != '\x7d')) with
      | none => exact Tracks.error
      | some d => exact Tracks.ok
    · rw [htake, hexChar?_eq_none (by simp [closing])]
      exact Tracks.error
  · have hhead : (cs ++ closing).head? ≠ some '\x7b' := by
      cases cs with
      | nil => simp [closing]
      | cons c cs => exact hbrace
    rw [readCode_fixed width hhead, readCode_fixed width hbrace]
    rcases Nat.lt_or_ge cs.length width with hlt | hle
    · obtain ⟨n, rfl⟩ : ∃ n, width = cs.length + (n + 1) := ⟨width - cs.length - 1, by omega⟩
      rw [hexChar?_eq_none (by simp [List.take_append, closing])]
      exact Tracks.error
    · rw [List.take_append_of_le_length hle, List.drop_append_of_le_length hle]
      cases hexChar? (cs.take width) with
      | none => exact Tracks.error
      | some c =>
        dsimp only
        split
        · exact Tracks.ok
        · exact Tracks.error

/-- An escape is a sign of its own, is followed by a code, or is refused, whatever comes behind. -/
theorem readEscape_cons (c : Char) (cs cs' : List Char) :
    (∃ e, readEscape (c :: cs) = .ok (e, cs) ∧ readEscape (c :: cs') = .ok (e, cs')) ∨
    (∃ width, readEscape (c :: cs) = readCode width cs ∧
      readEscape (c :: cs') = readCode width cs') ∨
    readEscape (c :: cs) = .error .badEscape := by
  unfold readEscape
  dsimp only
  split
  case h_19 | h_20 | h_21 => exact Or.inr (Or.inl ⟨_, rfl, rfl⟩)
  case h_22 =>
    split
    · exact Or.inl ⟨_, rfl, rfl⟩
    · exact Or.inr (Or.inr rfl)
  all_goals exact Or.inl ⟨_, rfl, rfl⟩

/-- An escape is taken from the front. -/
theorem leaves_readEscape (cs : List Char) : Leaves cs (readEscape cs) := by
  cases cs with
  | nil => exact Leaves.error
  | cons c cs =>
    have hcs := List.suffix_cons c cs
    rcases readEscape_cons c cs cs with ⟨e, h, -⟩ | ⟨width, h, -⟩ | h <;> rw [h]
    · exact Leaves.ok hcs
    · exact (leaves_readCode width cs).mono hcs
    · exact Leaves.error

/-- An escape does not see the closing, unless it escapes that. -/
theorem tracks_readEscape (cs : List Char) :
    Tracks (readEscape (cs ++ closing)) (readEscape cs) := by
  cases cs with
  | nil => exact Tracks.of_leaves (Leaves.ok List.suffix_rfl)
  | cons c cs =>
    rw [List.cons_append]
    rcases readEscape_cons c (cs ++ closing) cs with ⟨e, h, h'⟩ | ⟨width, h, h'⟩ | h
    · rw [h, h']
      exact Tracks.ok
    · rw [h, h']
      exact tracks_readCode width cs
    · rw [h]
      exact Tracks.error

end FormRules.Pattern
