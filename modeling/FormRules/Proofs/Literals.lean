import FormRules.Proofs.Doubles
import FormRules.Proofs.Grammar

/-!
# Number literals

A literal is a sign, digits, a fraction and an exponent, and only the digits must be there. Each
part ends where the next one begins, so a literal is found again in front of every text that could
not go on with it (`Literal.readLiteral?_chars`).

What a number is written as is such a literal. A whole number has neither a fraction nor an exponent
and reads as a whole number (`Literal.number?_ofInt`). A finite double has one of the two in every
layout, and so it reads as a double even where it is whole (`Literal.number?_ofFloat`). Which double
that is depends on the arithmetic of the reader.
-/

namespace FormRules.Json

open Decimal

namespace Literal

variable {l : Literal} {cs ds rest : List Char} {c : Char}

/-! ## Reading a literal back -/

/-- The text of a fraction. -/
def fractionChars : Option (List Char) → List Char
  | none => []
  | some ds => '.' :: ds

/-- The text of an exponent. -/
def exponentChars : Option Int → List Char
  | none => []
  | some e => 'e' :: (if e < 0 then '-' else '+') :: digits e.natAbs

/-- The text of a literal. -/
def chars (l : Literal) : List Char :=
  (if l.negative then ['-'] else []) ++ (l.whole ++ (fractionChars l.fraction ++
    exponentChars l.exponent))

/-- Digits, of which there is one. -/
structure IsDigits (ds : List Char) : Prop where
  ne_nil : ds ≠ []
  digit : ∀ c ∈ ds, c.isDigit = true

/-- A literal that can be read. A zero in front stands alone. -/
structure IsWellFormed (l : Literal) : Prop where
  whole : IsDigits l.whole
  zero : l.whole.head? = some '0' → l.whole.length ≤ 1
  fraction : ∀ ds ∈ l.fraction, IsDigits ds

/-- A text that does not go on with a literal in front of it. -/
def EndsNumber (rest : List Char) : Prop :=
  ∀ c ∈ rest.head?, c.isDigit = false ∧ c ≠ '.' ∧ c ≠ 'e' ∧ c ≠ 'E'

theorem isDigits_zero : IsDigits ['0'] := ⟨by simp, by simp⟩

/-- A number is written with digits, zero included. -/
theorem isDigits_digits (n : Nat) : IsDigits (digits n) :=
  ⟨Nat.toDigits_ne_nil, fun _ => Nat.isDigit_of_mem_toDigits (by decide) (by decide)⟩

/-- The digits of a number are read as the number. -/
theorem readDigits_digits (n : Nat) : readDigits 0 (digits n) = n :=
  Nat.ofDigitChars_toDigits (by decide) (by decide)

/-- Digits are read up to what is none. -/
theorem readDigits?_append (hds : IsDigits ds) (hrest : ∀ c ∈ rest.head?, c.isDigit = false) :
    readDigits? (ds ++ rest) = some (ds, rest) := by
  obtain ⟨htake, hdrop⟩ := Text.takeWhile_dropWhile_append hds.digit hrest
  rw [readDigits?, htake, hdrop, if_neg hds.ne_nil]

/-- In front of a text that does not go on with a number, a part ends where the next begins. -/
theorem head?_exponentChars (exponent : Option Int) (hrest : EndsNumber rest) :
    ∀ c ∈ (exponentChars exponent ++ rest).head?, c.isDigit = false ∧ c ≠ '.' := by
  cases exponent with
  | none => exact fun c hc => ⟨(hrest c hc).1, (hrest c hc).2.1⟩
  | some e => simp [exponentChars]

/-- What stands behind the whole part of a literal is no digit. -/
theorem head?_fractionChars (fraction : Option (List Char)) (exponent : Option Int)
    (hrest : EndsNumber rest) : ∀ c ∈ (fractionChars fraction ++
      (exponentChars exponent ++ rest)).head?, c.isDigit = false := by
  cases fraction with
  | none => exact fun c hc => (head?_exponentChars exponent hrest c hc).1
  | some ds => simp [fractionChars]

/-- A sign is read if there is one. -/
theorem readSign_append (negative : Bool) (hds : IsDigits ds) (rest : List Char) :
    readSign ((if negative then ['-'] else []) ++ (ds ++ rest)) = (negative, ds ++ rest) := by
  obtain ⟨d, ds, rfl⟩ := List.exists_cons_of_ne_nil hds.ne_nil
  cases negative with
  | true => rfl
  | false =>
    have hd : d ≠ '-' := by
      rintro rfl
      exact absurd (hds.digit '-' List.mem_cons_self) (by decide)
    simp [readSign, hd]

/-- A fraction is read if there is one, and up to what is no digit. -/
theorem readFraction?_append (fraction : Option (List Char))
    (hfraction : ∀ ds ∈ fraction, IsDigits ds)
    (hrest : ∀ c ∈ rest.head?, c.isDigit = false ∧ c ≠ '.') :
    readFraction? (fractionChars fraction ++ rest) = some (fraction, rest) := by
  cases fraction with
  | none =>
    unfold readFraction? fractionChars
    split
    · next cs hcs =>
      exact absurd rfl (hrest '.' (by simp [show rest = '.' :: cs from hcs])).2
    · rfl
  | some ds =>
    have hread := readDigits?_append (hfraction ds rfl) fun c hc => (hrest c hc).1
    simp [readFraction?, fractionChars, hread]

/-- An exponent is read if there is one. -/
theorem readExponent?_append (exponent : Option Int) (hrest : EndsNumber rest) :
    readExponent? (exponentChars exponent ++ rest) = some (exponent, rest) := by
  cases exponent with
  | none =>
    cases rest with
    | nil => rfl
    | cons c rest =>
      obtain ⟨-, -, he, hE⟩ := hrest c rfl
      simp [readExponent?, exponentChars, he, hE]
  | some e =>
    have hread := readDigits?_append (isDigits_digits e.natAbs) fun c hc => (hrest c hc).1
    have hsign : splitSign ((if e < 0 then '-' else '+') :: (digits e.natAbs ++ rest)) =
        (decide (e < 0), digits e.natAbs ++ rest) := by
      by_cases he : e < 0 <;> simp [splitSign, he]
    have hvalue : (if e < 0 then -(e.natAbs : Int) else e.natAbs) = e := by omega
    simp only [exponentChars, List.cons_append, readExponent?, true_or, if_true, hsign, hread,
      Option.map_some, readDigits_digits, decide_eq_true_eq, hvalue]

/-- A literal is found again in front of any text that does not go on with it. -/
theorem readLiteral?_chars (hl : l.IsWellFormed) (hrest : EndsNumber rest) :
    readLiteral? (l.chars ++ rest) = some (l, rest) := by
  obtain ⟨negative, whole, fraction, exponent⟩ := l
  obtain ⟨hwhole, hzero, hfraction⟩ := hl
  have hlead : ¬ (whole.head? = some '0' ∧ 1 < whole.length) := fun h =>
    absurd h.2 (Nat.not_lt.2 (hzero h.1))
  simp only [readLiteral?, chars, List.append_assoc, readSign_append negative hwhole,
    readDigits?_append hwhole (head?_fractionChars fraction exponent hrest), hlead, if_false,
    readFraction?_append fraction hfraction (head?_exponentChars exponent hrest),
    readExponent?_append exponent hrest, Option.bind_eq_bind, Option.bind_some, Option.pure_def]

/-! ## Whole numbers -/

/-- The literal of a whole number. -/
def ofInt (n : Int) : Literal := ⟨decide (n < 0), digits n.natAbs, none, none⟩

/-- A whole number is written as its literal. -/
theorem chars_ofInt (n : Int) : (ofInt n).chars = (toString n).toList := by
  rw [Int.toString_eq_repr]
  cases n <;> simp [ofInt, chars, fractionChars, exponentChars, digits, Int.repr]

/-- A positive number does not begin with a zero. -/
theorem head?_digits {n : Nat} (hn : n ≠ 0) : (digits n).head? ≠ some '0' := by
  induction n using Nat.strongRecOn with
  | ind n ih =>
    by_cases hsmall : n < 10
    · rw [digits, Nat.toDigits_of_lt_base hsmall]
      have hdigit : ∀ n < 10, n ≠ 0 → [n.digitChar].head? ≠ some '0' := by decide
      exact hdigit n hsmall hn
    · have hstep := ih (n / 10) (by omega) (by omega)
      rw [digits, Nat.toDigits_of_base_le (by decide) (by omega),
        List.head?_append_of_ne_nil _ Nat.toDigits_ne_nil]
      exact hstep

theorem isWellFormed_ofInt (n : Int) : (ofInt n).IsWellFormed where
  whole := isDigits_digits _
  zero h := by
    by_cases hn : n.natAbs = 0
    · simp [ofInt, hn, digits]
    · exact absurd h (head?_digits hn)
  fraction := by simp [ofInt]

/-- Whole numbers of 64 bits, with or without a sign, are read as they are. -/
theorem number?_ofInt {n : Int} (hlow : -0x8000000000000000 ≤ n) (hhigh : n ≤ significandLimit) :
    (ofInt n).number? = some (.whole n) := by
  simp only [number?, ofInt, readDigits_digits, true_and, decide_eq_false_iff_not,
    decide_eq_true_eq]
  by_cases hn : n < 0
  · rw [if_neg (by omega), if_pos (by omega)]
    congr 2
    omega
  · rw [if_pos (by omega)]
    congr 2
    omega

/-! ## Doubles -/

/-- The literal of a decimal with all its digits around the point. -/
def positional (negative : Bool) (ds : List Char) (e : Int) : Literal :=
  let position := ds.length + e
  if 0 ≤ e then ⟨negative, ds ++ List.replicate e.toNat '0', some ['0'], none⟩
  else if 0 < position then
    ⟨negative, ds.take position.toNat, some (ds.drop position.toNat), none⟩
  else ⟨negative, ['0'], some (List.replicate (-position).toNat '0' ++ ds), none⟩

/-- The literal of a decimal with one digit before the point. -/
def scientific (negative : Bool) (ds : List Char) (e : Int) : Literal :=
  ⟨negative, ds.take 1, if ds.length ≤ 1 then none else some (ds.drop 1), some (ds.length + e - 1)⟩

/-- The literal of a decimal. -/
def ofScaled (negative : Bool) (d : Scaled) : Literal :=
  let ds := digits d.digits
  if -4 ≤ ds.length + d.exponent ∧ ds.length + d.exponent ≤ 16 then
    positional negative ds d.exponent
  else scientific negative ds d.exponent

/-- The literal of a finite double. -/
def ofFloat (x : Float) : Literal :=
  let bits := x.toBits
  let negative := decide (signBit ≤ bits.toNat)
  if bits.toNat % signBit = 0 then ⟨negative, ['0'], some ['0'], none⟩
  else ofScaled negative (((Binary.ofBits bits).shortest .even).strip 20)

/-- A double that is written without an exponent is written as its literal. -/
theorem chars_positional (negative : Bool) (ds : List Char) (e : Int) :
    (positional negative ds e).chars =
      (if negative then ['-'] else []) ++ positionalText true ds e := by
  simp only [positional, positionalText]
  split
  · simp [chars, fractionChars, exponentChars]
  · split <;> simp [chars, fractionChars, exponentChars]

/-- A double that is written with an exponent is written as its literal. -/
theorem chars_scientific (negative : Bool) (ds : List Char) (e : Int) :
    (scientific negative ds e).chars = (if negative then ['-'] else []) ++ exponentText ds e := by
  simp only [scientific, exponentText]
  split <;> simp [chars, fractionChars, exponentChars]

/-- Whichever layout is chosen for a double, it is that of its literal. -/
theorem chars_ofScaled (negative : Bool) (d : Scaled) :
    (ofScaled negative (d.strip 20)).chars =
      (if negative then ['-'] else []) ++ Layout.exchange.spell d := by
  simp only [ofScaled, Layout.spell, Layout.exchange]
  generalize d.strip 20 = d
  split
  · exact chars_positional ..
  · exact chars_scientific ..

/-- A finite double is written as its literal. -/
theorem chars_ofFloat {x : Float} (hx : x.isFinite = true) :
    (ofFloat x).chars = (Layout.exchange.text x).toList := by
  have hbits := (Double.isFinite_iff x).1 hx
  have hnan : ¬ 0x7FF0000000000000 < x.toBits.toNat % signBit := by omega
  have hinf : x.toBits.toNat % signBit ≠ 0x7FF0000000000000 := hbits.ne
  simp only [ofFloat, Layout.text, if_neg hnan, if_neg hinf, String.toList_ofList]
  by_cases hzero : x.toBits.toNat % signBit = 0
  · simp [hzero, chars, fractionChars, exponentChars, Layout.exchange]
  · simp only [if_neg hzero, chars_ofScaled, decide_eq_true_eq]
    rfl

/-- A literal without an exponent is well-formed if its digits have no zero too many in front. Only
zero begins with a zero, and it has no negative exponent. -/
theorem isWellFormed_positional (negative : Bool) {e : Int} (hds : IsDigits ds)
    (hlead : ds.head? = some '0' → ds.length ≤ 1 ∧ e = 0) :
    (positional negative ds e).IsWellFormed := by
  have hlength := List.length_pos_of_ne_nil hds.ne_nil
  unfold positional
  dsimp only
  split
  · refine ⟨⟨by simp [hds.ne_nil], ?_⟩, fun h => ?_, ?_⟩
    · simpa [or_imp, forall_and] using hds.digit
    · rw [List.head?_append_of_ne_nil _ hds.ne_nil] at h
      obtain ⟨hone, rfl⟩ := hlead h
      simpa using hone
    · simpa using isDigits_zero
  · split
    · next he hposition =>
      refine ⟨⟨?_, fun c hc => hds.digit c (List.mem_of_mem_take hc)⟩, fun h => ?_, ?_⟩
      · simp [hds.ne_nil]
        omega
      · rw [List.head?_take, if_neg (by omega)] at h
        exact absurd (hlead h).2.ge he
      · intro cs hcs
        obtain rfl := Option.some.inj hcs
        exact ⟨by simp; omega, fun c hc => hds.digit c (List.mem_of_mem_drop hc)⟩
    · refine ⟨isDigits_zero, fun _ => le_rfl, ?_⟩
      intro cs hcs
      obtain rfl := Option.some.inj hcs
      refine ⟨by simp [hds.ne_nil], ?_⟩
      simpa [or_imp, forall_and] using hds.digit

theorem isWellFormed_scientific (negative : Bool) (e : Int) (hds : IsDigits ds) :
    (scientific negative ds e).IsWellFormed where
  whole := ⟨by simp [scientific, hds.ne_nil], fun c hc => hds.digit c (List.mem_of_mem_take hc)⟩
  zero _ := List.length_take_le ..
  fraction := by
    unfold scientific
    dsimp only
    split
    · simp
    · intro cs hcs
      obtain rfl := Option.some.inj hcs
      refine ⟨fun hnil => ?_, fun c hc => hds.digit c (List.mem_of_mem_drop hc)⟩
      have := List.drop_eq_nil_iff.1 hnil
      omega

/-- The decimal is no zero, or it is a zero without an exponent. -/
def IsProper (d : Scaled) : Prop := d.digits = 0 → d.exponent = 0

/-- The digits of a double make a well-formed literal in every layout. -/
theorem isWellFormed_ofScaled (negative : Bool) {d : Scaled} (hd : IsProper d) :
    (ofScaled negative d).IsWellFormed := by
  have hlead : (digits d.digits).head? = some '0' →
      (digits d.digits).length ≤ 1 ∧ d.exponent = 0 := by
    intro h
    by_cases hzero : d.digits = 0
    · exact ⟨by simp [hzero, digits], hd hzero⟩
    · exact absurd h (head?_digits hzero)
  unfold ofScaled
  dsimp only
  split
  · exact isWellFormed_positional negative (isDigits_digits _) hlead
  · exact isWellFormed_scientific negative d.exponent (isDigits_digits _)

/-- Zeros at the end may be dropped. -/
theorem isProper_strip {d : Scaled} (n : Nat) (hd : IsProper d) : IsProper (d.strip n) := by
  fun_induction Scaled.strip with
  | case1 d => exact hd
  | case2 n d h ih =>
    refine ih fun hzero => ?_
    simp only at hzero
    omega
  | case3 n d h => exact hd

/-- Zero is below every positive number by more than its neighbours are. -/
theorem ne_zero_of_admits {b : Binary} {t : Nat} {e : Int} (hm : 0 < b.m) (hbelow : b.below ≤ 2)
    (h : b.admits t e = true) : t ≠ 0 := by
  rintro rfl
  have hreach : 0 < 4 * b.m - b.below := by omega
  have hlow : 0 < b.units (4 * b.m - b.below) := Nat.mul_pos hreach (Nat.pow_pos (by decide))
  have hnone : b.m % 2 = 0 ∧ b.units (4 * b.m - b.below) = 0 := by
    simpa [Binary.admits] using h
  exact hlow.ne' hnone.2

/-- The search for short digits does not end at zero. -/
theorem ne_zero_of_search {b : Binary} {tie : Tie} {position : Int} {n digits : Nat} {d : Scaled}
    (hm : 0 < b.m) (hbelow : b.below ≤ 2) (h : b.search tie position n digits = some d) :
    d.digits ≠ 0 := by
  induction n generalizing digits with
  | zero => cases h
  | succ n ih =>
    rw [Binary.search] at h
    split at h
    · next hgrid =>
      obtain rfl := Option.some.inj h
      exact ne_zero_of_admits hm hbelow (Binary.admits_of_onGrid? hgrid)
    · exact ih h

/-- The shortest digits have no zero in front. -/
theorem isProper_shortest {b : Binary} (tie : Tie) (hm : 0 < b.m) (hbelow : b.below ≤ 2) :
    IsProper (b.shortest tie) := by
  unfold Binary.shortest
  cases h : b.search tie b.position 17 1 with
  | none => exact fun _ => rfl
  | some d => exact fun hzero => absurd hzero (ne_zero_of_search hm hbelow h)

/-- The bits of a double that is not zero have a mantissa that is not zero either. -/
theorem ofBits_bounds {bits : UInt64} (h : bits.toNat % signBit ≠ 0) :
    0 < (Binary.ofBits bits).m ∧ (Binary.ofBits bits).below ≤ 2 := by
  unfold Binary.ofBits Binary.ofParts leadingBit
  unfold signBit at h
  split
  · exact ⟨by simp only; omega, le_rfl⟩
  · refine ⟨by simp only; omega, ?_⟩
    dsimp only
    split <;> omega

/-- Every double is written as a well-formed literal. -/
theorem isWellFormed_ofFloat (x : Float) : (ofFloat x).IsWellFormed := by
  unfold ofFloat
  dsimp only
  split
  · exact ⟨isDigits_zero, fun _ => le_rfl, by simpa using isDigits_zero⟩
  · next h =>
    obtain ⟨hm, hbelow⟩ := ofBits_bounds h
    exact isWellFormed_ofScaled _ (isProper_strip 20 (isProper_shortest .even hm hbelow))

/-- What a double is written as has a point or an exponent. -/
theorem isSplit_ofFloat (x : Float) :
    (ofFloat x).fraction ≠ none ∨ (ofFloat x).exponent ≠ none := by
  unfold ofFloat ofScaled positional scientific
  dsimp only
  split
  · exact .inl (by simp)
  · split
    · split
      · exact .inl (by simp)
      · split <;> exact .inl (by simp)
    · exact .inr (by simp)

/-- A double is read as a double. -/
theorem number?_ofFloat (x : Float) : (ofFloat x).number? = (ofFloat x).double?.map .fraction := by
  have hsplit : ¬ ((ofFloat x).fraction = none ∧ (ofFloat x).exponent = none) := by
    rintro ⟨hfraction, hexponent⟩
    exact (isSplit_ofFloat x).elim (· hfraction) (· hexponent)
  simp only [number?, hsplit, false_and, if_false]

end Literal

end FormRules.Json
