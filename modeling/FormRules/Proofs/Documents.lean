import FormRules.Json.Reader
import FormRules.Proofs.Literals

/-!
# Documents as text

A document is printed without blanks, and what was printed is read again: a string however it is
escaped, a number as the kind of number it is, and the parts of an array or object in order
(`IsKept.parse_printed`). Two kinds of documents are left out. A part that stands for nothing is
printed as null, and a double must read back from its own text (`ReadsBack`), which is a matter of
arithmetic.

Reading a value stops where the value ends, for a number at the first character that could not go on
with it (`IsRead`). Arrays and objects are read by this property of their parts. Conversely, a
document that was read has no infinities in it (`isFinite_of_parse`).
-/

namespace FormRules.Json

variable {rest cs : List Char} {fuel : Nat}

/-! ## Strings -/

/-- A hexadecimal digit is read as what it stands for. -/
theorem hexDigit?_digitChar : ∀ n < 16, hexDigit? (Nat.digitChar n) = some n := by decide

/-- The number of a control character is read as that character. -/
theorem unitPiece_toNat {c : Char} (hc : c.toNat < 0x20) :
    unitPiece (16 * (c.toNat / 16) + c.toNat % 16) = .char c := by
  rw [unitPiece, if_neg (by omega), Nat.div_add_mod, Char.ofNat_toNat]

/-- An escaped character is read as it was. -/
theorem readPieces?_escape (fuel : Nat) (c : Char) (cs : List Char) :
    readPieces? (fuel + 1) (escape c ++ cs) =
      (readPieces? fuel cs).map fun p => (.char c :: p.1, p.2) := by
  unfold escape
  split
  case h_8 =>
    split
    · next hcontrol =>
      have hhigh := hexDigit?_digitChar (c.toNat / 16) (by omega)
      have hlow := hexDigit?_digitChar (c.toNat % 16) (by omega)
      have hzero : hexDigit? '0' = some 0 := rfl
      have hpiece := unitPiece_toNat hcontrol
      simp only [List.cons_append, List.nil_append, readPieces?]
      cases h : readPieces? fuel cs <;> simp [hhigh, hlow, hzero, hpiece]
    · next hquote hslash _ _ _ _ _ hcontrol =>
      have hplain : ¬ (c.toNat < 0x20 ∨ c = '\\') := by
        rintro (h | h)
        exacts [hcontrol h, hslash h]
      rw [List.singleton_append, readPieces?]
      · cases h : readPieces? fuel cs <;> simp [hplain]
      · exact hquote
      · exact fun _ _ _ _ _ h _ => hslash h
      · exact fun _ _ h _ => hslash h
  all_goals
    cases h : readPieces? fuel cs <;> simp [readPieces?, shortEscape?, h]

/-- A string is read character by character, however it was escaped. -/
theorem readPieces?_flatMap {s : List Char} (hfuel : s.length < fuel) (rest : List Char) :
    readPieces? fuel (s.flatMap escape ++ '"' :: rest) = some (s.map .char, rest) := by
  induction s generalizing fuel with
  | nil =>
    cases fuel with
    | zero => cases hfuel
    | succ fuel => rfl
  | cons c s ih =>
    cases fuel with
    | zero => cases hfuel
    | succ fuel =>
      rw [List.flatMap_cons, List.append_assoc, readPieces?_escape, ih (by simpa using hfuel)]
      rfl

/-- Characters are joined as they are. -/
theorem joinPieces?_char (s : List Char) : joinPieces? (s.map .char) = some s := by
  induction s with
  | nil => rfl
  | cons c s ih => simp [joinPieces?, ih]

theorem length_escape (c : Char) : 1 ≤ (escape c).length := by
  unfold escape
  split <;> try simp
  split <;> simp

theorem length_le_flatMap (s : List Char) : s.length ≤ (s.flatMap escape).length := by
  induction s with
  | nil => exact le_rfl
  | cons c s ih =>
    have := length_escape c
    simp only [List.flatMap_cons, List.length_append, List.length_cons]
    omega

/-- The text of a string begins and ends with a quote. -/
theorem stringText_append (s : String) (rest : List Char) :
    stringText s ++ rest = '"' :: (s.toList.flatMap escape ++ '"' :: rest) := by
  simp [stringText]

/-- A string is read up to its closing quote. -/
theorem readString?_stringText {s : String} (hfuel : (stringText s).length ≤ fuel + 1)
    (rest : List Char) :
    readString? fuel (s.toList.flatMap escape ++ '"' :: rest) = some (some s, rest) := by
  have hlength := length_le_flatMap s.toList
  have hshort : s.toList.length < fuel := by
    simp only [stringText, List.length_append, List.length_cons, List.length_nil] at hfuel
    omega
  simp only [readString?, readPieces?_flatMap hshort, Option.map_some, joinPieces?_char,
    String.ofList_toList]

/-! ## Values -/

/-- Only blanks are skipped. -/
theorem skipBlanks_cons {c : Char} (hc : " \t\n\r".toList.contains c = false) (cs : List Char) :
    skipBlanks (c :: cs) = c :: cs := by
  rw [skipBlanks, List.dropWhile_cons_of_neg]
  simpa using hc

/-- What a value may begin with. -/
structure IsStart (c : Char) : Prop where
  blank : " \t\n\r".toList.contains c = false
  bracket : c ≠ ']'
  brace : c ≠ '\x7d'

namespace Literal

variable {l : Literal}

/-- A literal begins with a digit or a sign. -/
theorem exists_start (hl : l.IsWellFormed) :
    ∃ c cs, l.chars = c :: cs ∧ (c = '-' ∨ c.isDigit = true) := by
  obtain ⟨negative, whole, fraction, exponent⟩ := l
  obtain ⟨d, ds, hds⟩ := List.exists_cons_of_ne_nil hl.whole.ne_nil
  have hd : d.isDigit = true := hl.whole.digit d (hds ▸ List.mem_cons_self)
  obtain rfl : whole = d :: ds := hds
  cases negative with
  | true => exact ⟨'-', _, rfl, .inl rfl⟩
  | false => exact ⟨d, _, rfl, .inr hd⟩

end Literal

/-- The beginning of a literal is nothing else. -/
theorem ne_of_start {c d : Char} (hc : c = '-' ∨ c.isDigit = true)
    (hd : d ≠ '-' ∧ d.isDigit = false) : c ≠ d := by
  rintro rfl
  simp_all

/-- The beginning of a literal tells that a number follows. -/
theorem isStart_of_start {c : Char} (hc : c = '-' ∨ c.isDigit = true) : IsStart c where
  blank := by
    have hne (d : Char) := @ne_of_start c d hc
    simp [hne ' ' (by decide), hne '\t' (by decide), hne '\n' (by decide), hne '\r' (by decide)]
  bracket := ne_of_start hc (by decide)
  brace := ne_of_start hc (by decide)

/-- A literal is read up to where it ends. -/
theorem readValue?_literal {l : Literal} (hl : l.IsWellFormed) (hrest : Literal.EndsNumber rest)
    (fuel : Nat) : readValue? (fuel + 1) (l.chars ++ rest) = some (.number l.number?, rest) := by
  have hread := Literal.readLiteral?_chars hl hrest
  obtain ⟨c, cs, hchars, hc⟩ := Literal.exists_start hl
  rw [hchars, List.cons_append] at hread ⊢
  rw [readValue?, skipBlanks_cons (isStart_of_start hc).blank]
  split
  case h_7 => rw [hread]; rfl
  all_goals
    next heq =>
    injection heq with heq _
    exact absurd heq (ne_of_start hc (by decide))

/-- The document is found again in front of every text that could not go on with a number. -/
def IsRead (j : Json) : Prop :=
  ∀ fuel rest, 2 * j.chars.length ≤ fuel → Literal.EndsNumber rest →
    readValue? fuel (j.chars ++ rest) = some (j, rest)

/-- A number ends at anything that is no part of one. -/
theorem endsNumber_cons {c : Char} (hc : c.isDigit = false ∧ c ≠ '.' ∧ c ≠ 'e' ∧ c ≠ 'E')
    (cs : List Char) : Literal.EndsNumber (c :: cs) := by
  rintro d hd
  obtain rfl : c = d := Option.some.inj hd
  exact hc

/-! ## Parts of arrays and objects -/

section

variable {k : String} {x : Json}

/-- An element is read up to its comma, and then the next ones. -/
theorem readElements?_comma (hx : x.IsRead) (hfuel : 2 * x.chars.length ≤ fuel) (cs : List Char) :
    readElements? (fuel + 1) (x.chars ++ ',' :: cs) =
      (readElements? fuel cs).map fun p => (x :: p.1, p.2) := by
  have hvalue := hx fuel (',' :: cs) hfuel (endsNumber_cons (by decide) cs)
  have hcomma : skipBlanks (',' :: cs) = ',' :: cs := skipBlanks_cons (by decide) cs
  rw [readElements?]
  cases h : readElements? fuel cs <;> simp [hvalue, hcomma, h]

/-- The last element is read up to the bracket. -/
theorem readElements?_close (hx : x.IsRead) (hfuel : 2 * x.chars.length ≤ fuel) (cs : List Char) :
    readElements? (fuel + 1) (x.chars ++ ']' :: cs) = some ([x], cs) := by
  have hvalue := hx fuel (']' :: cs) hfuel (endsNumber_cons (by decide) cs)
  have hclose : skipBlanks (']' :: cs) = ']' :: cs := skipBlanks_cons (by decide) cs
  rw [readElements?]
  simp [hvalue, hclose]

/-- A member up to what is behind its value. -/
theorem readMembers?_value (hx : x.IsRead)
    (hfuel : (stringText k).length + 2 * x.chars.length ≤ fuel) (hcs : Literal.EndsNumber cs) :
    skipBlanks (stringText k ++ ':' :: (x.chars ++ cs)) =
        '"' :: (k.toList.flatMap escape ++ '"' :: ':' :: (x.chars ++ cs)) ∧
      readString? fuel (k.toList.flatMap escape ++ '"' :: ':' :: (x.chars ++ cs)) =
        some (some k, ':' :: (x.chars ++ cs)) ∧
      skipBlanks (':' :: (x.chars ++ cs)) = ':' :: (x.chars ++ cs) ∧
      readValue? fuel (x.chars ++ cs) = some (x, cs) := by
  refine ⟨?_, readString?_stringText (by omega) _, skipBlanks_cons (by decide) _,
    hx fuel cs (by omega) hcs⟩
  rw [stringText_append]
  exact skipBlanks_cons (by decide) _

/-- A member is read up to its comma, and then the next ones. -/
theorem readMembers?_comma (hx : x.IsRead)
    (hfuel : (stringText k).length + 2 * x.chars.length ≤ fuel) (cs : List Char) :
    readMembers? (fuel + 1) (stringText k ++ ':' :: (x.chars ++ ',' :: cs)) =
      (readMembers? fuel cs).map fun p => ((some k, x) :: p.1, p.2) := by
  obtain ⟨hquote, hkey, hcolon, hvalue⟩ :=
    readMembers?_value hx hfuel (endsNumber_cons (c := ',') (by decide) cs)
  have hcomma : skipBlanks (',' :: cs) = ',' :: cs := skipBlanks_cons (by decide) cs
  rw [readMembers?, hquote]
  cases h : readMembers? fuel cs <;> simp [hkey, hcolon, hvalue, hcomma, h]

/-- The last member is read up to the brace. -/
theorem readMembers?_close (hx : x.IsRead)
    (hfuel : (stringText k).length + 2 * x.chars.length ≤ fuel) (cs : List Char) :
    readMembers? (fuel + 1) (stringText k ++ ':' :: (x.chars ++ '\x7d' :: cs)) =
      some ([(some k, x)], cs) := by
  obtain ⟨hquote, hkey, hcolon, hvalue⟩ :=
    readMembers?_value hx hfuel (endsNumber_cons (c := '\x7d') (by decide) cs)
  have hclose : skipBlanks ('\x7d' :: cs) = '\x7d' :: cs := skipBlanks_cons (by decide) cs
  rw [readMembers?, hquote]
  simp [hkey, hcolon, hvalue, hclose]

end

/-- Elements that are read each are read as a list. Each character pays for two steps, so the comma
pays for the step to the next element. -/
theorem readElements?_chars {xs : List Json} (hne : xs ≠ []) (hread : ∀ x ∈ xs, x.IsRead)
    (hfuel : 2 * (chars.elements xs).length < fuel) (rest : List Char) :
    readElements? fuel (chars.elements xs ++ ']' :: rest) = some (xs, rest) := by
  induction xs generalizing fuel with
  | nil => exact absurd rfl hne
  | cons x xs ih =>
    obtain ⟨fuel, rfl⟩ := Nat.exists_eq_add_one_of_ne_zero (Nat.ne_zero_of_lt hfuel)
    have hx := hread x List.mem_cons_self
    cases xs with
    | nil =>
      simp only [chars.elements] at hfuel ⊢
      exact readElements?_close hx (by omega) rest
    | cons y ys =>
      simp only [chars.elements, List.length_append, List.length_cons] at hfuel
      have htail : readElements? fuel (chars.elements (y :: ys) ++ ']' :: rest) =
          some (y :: ys, rest) :=
        ih (by simp) (fun z hz => hread z (List.mem_cons_of_mem _ hz)) (by omega)
      simp only [chars.elements, List.append_assoc, List.cons_append]
      rw [readElements?_comma hx (by omega), htail]
      rfl

/-- Members that are read each are read as a list. -/
theorem readMembers?_chars {ms : List (Option String × Json)} (hne : ms ≠ [])
    (hkey : ∀ m ∈ ms, m.1.isSome = true) (hread : ∀ m ∈ ms, m.2.IsRead)
    (hfuel : 2 * (chars.members ms).length < fuel) (rest : List Char) :
    readMembers? fuel (chars.members ms ++ '\x7d' :: rest) = some (ms, rest) := by
  induction ms generalizing fuel with
  | nil => exact absurd rfl hne
  | cons m ms ih =>
    obtain ⟨fuel, rfl⟩ := Nat.exists_eq_add_one_of_ne_zero (Nat.ne_zero_of_lt hfuel)
    obtain ⟨k, x⟩ := m
    obtain ⟨k, rfl⟩ := Option.isSome_iff_exists.1 (hkey _ List.mem_cons_self)
    have hx : x.IsRead := hread _ List.mem_cons_self
    cases ms with
    | nil =>
      simp only [chars.members, Option.getD_some, List.length_append, List.length_cons] at hfuel
      simp only [chars.members, Option.getD_some, List.append_assoc, List.cons_append]
      exact readMembers?_close hx (by omega) rest
    | cons n ns =>
      simp only [chars.members, Option.getD_some, List.length_append, List.length_cons] at hfuel
      have htail : readMembers? fuel (chars.members (n :: ns) ++ '\x7d' :: rest) =
          some (n :: ns, rest) :=
        ih (by simp) (fun z hz => hkey z (List.mem_cons_of_mem _ hz))
          (fun z hz => hread z (List.mem_cons_of_mem _ hz)) (by omega)
      simp only [chars.members, Option.getD_some, List.append_assoc, List.cons_append]
      rw [readMembers?_comma hx (by omega), htail]
      rfl

/-! ## Whole documents -/

/-- A number whose text is a literal for it is read. -/
theorem isRead_number {l : Literal} {n : JsonNumber} (hl : l.IsWellFormed)
    (hchars : l.chars = numberText n) (hnumber : l.number? = some n) :
    IsRead (.number (some n)) := by
  intro fuel rest hfuel hrest
  have htext : chars (.number (some n)) = l.chars := hchars.symm
  obtain ⟨c, cs, hcons, -⟩ := Literal.exists_start hl
  rw [htext] at hfuel ⊢
  obtain ⟨fuel, rfl⟩ : ∃ k, fuel = k + 1 :=
    Nat.exists_eq_add_one_of_ne_zero (by rw [hcons, List.length_cons] at hfuel; omega)
  rw [readValue?_literal hl hrest, hnumber]

/-- A document that is read to the end of its text is parsed. -/
theorem parse_render_eq {j j' : Json}
    (h : readValue? (2 * j.chars.length + 2) j.chars = some (j', [])) :
    parse j.render = some j' := by
  rw [parse, render, String.toList_ofList]
  dsimp only
  rw [h]
  rfl

/-- The double reads back from its own text. -/
def ReadsBack (x : Float) : Prop :=
  parse (render (.number (some (.fraction x)))) = some (.number (some (.fraction x)))

/-- That it does is up to the arithmetic on its digits. -/
theorem readsBack_iff {x : Float} (hx : x.isFinite = true) :
    ReadsBack x ↔ (Literal.ofFloat x).double? = some x := by
  have hchars : (Literal.ofFloat x).chars = chars (.number (some (.fraction x))) :=
    Literal.chars_ofFloat hx
  have hend : Literal.EndsNumber [] := by simp [Literal.EndsNumber]
  have hread := readValue?_literal (Literal.isWellFormed_ofFloat x) hend
    (2 * (Literal.ofFloat x).chars.length + 1)
  rw [List.append_nil, Literal.number?_ofFloat, hchars] at hread
  rw [ReadsBack, parse_render_eq hread]
  simp

/-- A document that stands for something, with numbers that read back. -/
inductive IsKept : Json → Prop
  | null : IsKept .null
  | bool (b : Bool) : IsKept (.bool b)
  | whole {n : Int} (low : -0x8000000000000000 ≤ n) (high : n ≤ significandLimit) :
    IsKept (.number (some (.whole n)))
  | fraction {x : Float} (finite : x.isFinite = true)
    (reads : ReadsBack x) : IsKept (.number (some (.fraction x)))
  | string (s : String) : IsKept (.string (some s))
  | array {xs : List Json} (kept : ∀ x ∈ xs, IsKept x) : IsKept (.array xs)
  | object {ms : List (Option String × Json)} (keys : ∀ m ∈ ms, m.1.isSome = true)
    (kept : ∀ m ∈ ms, IsKept m.2) : IsKept (.object ms)

/-- No document begins with a blank or closes a bracket. -/
theorem IsKept.exists_start {j : Json} (hj : j.IsKept) :
    ∃ c cs, j.chars = c :: cs ∧ IsStart c := by
  have hliteral {l : Literal} {n : JsonNumber} (hl : l.IsWellFormed)
      (hchars : l.chars = numberText n) :
      ∃ c cs, chars (.number (some n)) = c :: cs ∧ IsStart c := by
    obtain ⟨c, cs, hcons, hc⟩ := Literal.exists_start hl
    exact ⟨c, cs, hchars.symm.trans hcons, isStart_of_start hc⟩
  cases hj with
  | null => exact ⟨'n', _, rfl, by decide, by decide, by decide⟩
  | bool b =>
    cases b with
    | false => exact ⟨'f', _, rfl, by decide, by decide, by decide⟩
    | true => exact ⟨'t', _, rfl, by decide, by decide, by decide⟩
  | whole low high => exact hliteral (Literal.isWellFormed_ofInt _) (Literal.chars_ofInt _)
  | fraction finite reads =>
    exact hliteral (Literal.isWellFormed_ofFloat _) (Literal.chars_ofFloat finite)
  | string s => exact ⟨'"', _, rfl, by decide, by decide, by decide⟩
  | array kept => exact ⟨'[', _, by rw [chars]; rfl, by decide, by decide, by decide⟩
  | object keys kept => exact ⟨'\x7b', _, by rw [chars]; rfl, by decide, by decide, by decide⟩

/-- The text of some elements begins as that of the first. -/
theorem exists_start_elements {xs : List Json} (hne : xs ≠ []) (hxs : ∀ x ∈ xs, IsKept x) :
    ∃ c cs, chars.elements xs = c :: cs ∧ IsStart c := by
  obtain ⟨x, xs, rfl⟩ := List.exists_cons_of_ne_nil hne
  obtain ⟨c, cs, hcons, hc⟩ := (hxs x List.mem_cons_self).exists_start
  cases xs with
  | nil => exact ⟨c, cs, hcons, hc⟩
  | cons y ys => exact ⟨c, _, by rw [chars.elements, hcons]; rfl; simp, hc⟩

/-- The text of some members begins with a quote. -/
theorem exists_start_members {ms : List (Option String × Json)} (hne : ms ≠ []) :
    ∃ c cs, chars.members ms = c :: cs ∧ IsStart c := by
  obtain ⟨⟨k, x⟩, ms, rfl⟩ := List.exists_cons_of_ne_nil hne
  cases ms <;> exact ⟨'"', _, rfl, by decide, by decide, by decide⟩

theorem readValue?_quote (fuel : Nat) (cs : List Char) : readValue? (fuel + 1) ('"' :: cs) =
    (readString? fuel cs).map fun (s, cs) => (.string s, cs) := by
  rw [readValue?, skipBlanks_cons (by decide)]
  rfl

/-- Behind a bracket elements are read, unless it is closed at once. -/
theorem readValue?_bracket (fuel : Nat) (cs : List Char) : readValue? (fuel + 1) ('[' :: cs) =
    match skipBlanks cs with
    | ']' :: cs => some (.array [], cs)
    | cs => (readElements? fuel cs).map fun (xs, cs) => (.array xs, cs) := by
  rw [readValue?, skipBlanks_cons (by decide)]
  rfl

/-- Behind a brace members are read, unless it is closed at once. -/
theorem readValue?_brace (fuel : Nat) (cs : List Char) : readValue? (fuel + 1) ('\x7b' :: cs) =
    match skipBlanks cs with
    | '\x7d' :: cs => some (.object [], cs)
    | cs => (readMembers? fuel cs).map fun (ms, cs) => (.object ms, cs) := by
  rw [readValue?, skipBlanks_cons (by decide)]
  rfl

/-- A string is read. -/
theorem isRead_string (s : String) : IsRead (.string (some s)) := by
  intro fuel rest hfuel _
  have hchars : chars (.string (some s)) = stringText s := rfl
  rw [hchars] at hfuel ⊢
  obtain ⟨fuel, rfl⟩ : ∃ k, fuel = k + 1 :=
    Nat.exists_eq_add_one_of_ne_zero (by simp [stringText] at hfuel; omega)
  have hread := readString?_stringText (show (stringText s).length ≤ fuel + 1 by omega) rest
  rw [stringText_append, readValue?_quote, hread]
  rfl

/-- An array is read if its elements are. -/
theorem isRead_array {xs : List Json} (hxs : ∀ x ∈ xs, IsKept x) (hread : ∀ x ∈ xs, x.IsRead) :
    IsRead (.array xs) := by
  intro fuel rest hfuel hrest
  simp only [chars, List.length_append, List.length_cons] at hfuel
  obtain ⟨fuel, rfl⟩ := Nat.exists_eq_add_one_of_ne_zero (show fuel ≠ 0 by omega)
  simp only [chars, List.cons_append, List.append_assoc, List.nil_append, readValue?_bracket]
  by_cases hne : xs = []
  · subst hne
    rfl
  obtain ⟨c, cs, hcons, hc⟩ := exists_start_elements hne hxs
  have helements := readElements?_chars hne hread (show _ < fuel by omega) rest
  rw [hcons, List.cons_append] at helements ⊢
  rw [skipBlanks_cons hc.blank]
  split
  · next heq => exact absurd (List.cons.inj heq).1 hc.bracket
  · rw [helements]
    rfl

/-- An object is read if its members are. -/
theorem isRead_object {ms : List (Option String × Json)} (keys : ∀ m ∈ ms, m.1.isSome = true)
    (hread : ∀ m ∈ ms, m.2.IsRead) : IsRead (.object ms) := by
  intro fuel rest hfuel hrest
  simp only [chars, List.length_append, List.length_cons] at hfuel
  obtain ⟨fuel, rfl⟩ := Nat.exists_eq_add_one_of_ne_zero (show fuel ≠ 0 by omega)
  simp only [chars, List.cons_append, List.append_assoc, List.nil_append, readValue?_brace]
  by_cases hne : ms = []
  · subst hne
    rfl
  obtain ⟨c, cs, hcons, hc⟩ := exists_start_members hne
  have hmembers := readMembers?_chars hne keys hread (show _ < fuel by omega) rest
  rw [hcons, List.cons_append] at hmembers ⊢
  rw [skipBlanks_cons hc.blank]
  split
  · next heq => exact absurd (List.cons.inj heq).1 hc.brace
  · rw [hmembers]
    rfl

/-- Every document without the two exceptions is read, by induction on its parts. -/
theorem IsKept.isRead {j : Json} (hj : j.IsKept) : j.IsRead := by
  induction hj with
  | null =>
    intro fuel rest hfuel hrest
    cases fuel with
    | zero => simp [chars] at hfuel
    | succ fuel => simp [chars, readValue?, skipBlanks_cons]
  | bool b =>
    intro fuel rest hfuel hrest
    cases fuel with
    | zero => cases b <;> simp [chars] at hfuel
    | succ fuel => cases b <;> simp [chars, readValue?, skipBlanks_cons]
  | whole low high =>
    exact isRead_number (Literal.isWellFormed_ofInt _) (Literal.chars_ofInt _)
      (Literal.number?_ofInt low high)
  | fraction finite reads =>
    exact isRead_number (Literal.isWellFormed_ofFloat _) (Literal.chars_ofFloat finite)
      (by rw [Literal.number?_ofFloat, (readsBack_iff finite).1 reads]; rfl)
  | string s => exact isRead_string s
  | array kept ih => exact isRead_array kept ih
  | object keys kept ih => exact isRead_object keys ih

/-- A document of such parts is read as it was printed. -/
theorem IsKept.parse_printed {j : Json} (hj : j.IsKept) : parse j.render = some j := by
  have hread := hj.isRead (2 * j.chars.length + 2) [] (by omega) (by simp [Literal.EndsNumber])
  rw [List.append_nil] at hread
  exact parse_render_eq hread

/-! ## What is read -/

/-- Every double in the document is finite. -/
inductive IsFinite : Json → Prop
  | null : IsFinite .null
  | bool (b : Bool) : IsFinite (.bool b)
  | number {n : Option JsonNumber} (finite : ∀ x, n = some (.fraction x) → x.isFinite = true) :
    IsFinite (.number n)
  | string (s : Option String) : IsFinite (.string s)
  | array {xs : List Json} (finite : ∀ x ∈ xs, IsFinite x) : IsFinite (.array xs)
  | object {ms : List (Option String × Json)} (finite : ∀ m ∈ ms, IsFinite m.2) :
    IsFinite (.object ms)

/-- A literal is never read as an infinity. -/
theorem Literal.isFinite_of_number? {l : Literal} {x : Float} (h : l.number? = some (.fraction x)) :
    x.isFinite = true := by
  simp only [Literal.number?] at h
  split at h
  · cases h
  · split at h
    · cases h
    · obtain ⟨y, hy, heq⟩ := Option.map_eq_some_iff.1 h
      injection heq with heq
      exact Literal.isFinite_of_double? (heq ▸ hy)

/-- One step of each reader keeps it, if the readers it calls do. -/
theorem isFinite_of_read (fuel : Nat) :
    (∀ cs j rest, readValue? fuel cs = some (j, rest) → j.IsFinite) ∧
    (∀ cs xs rest, readElements? fuel cs = some (xs, rest) → ∀ x ∈ xs, x.IsFinite) ∧
    (∀ cs ms rest, readMembers? fuel cs = some (ms, rest) → ∀ m ∈ ms, m.2.IsFinite) := by
  induction fuel with
  | zero => simp [readValue?, readElements?, readMembers?]
  | succ fuel ih =>
    obtain ⟨hvalue, helements, hmembers⟩ := ih
    refine ⟨fun cs j rest h => ?_, fun cs xs rest h => ?_, fun cs ms rest h => ?_⟩
    · rw [readValue?] at h
      split at h
      · obtain ⟨⟨s, cs⟩, -, heq⟩ := Option.map_eq_some_iff.1 h
        exact (Prod.mk.inj heq).1 ▸ .string s
      · split at h
        · obtain rfl := (Prod.mk.inj (Option.some.inj h)).1
          exact .array (by simp)
        · obtain ⟨⟨xs, cs⟩, hxs, heq⟩ := Option.map_eq_some_iff.1 h
          exact (Prod.mk.inj heq).1 ▸ .array (helements _ _ _ hxs)
      · split at h
        · obtain rfl := (Prod.mk.inj (Option.some.inj h)).1
          exact .object (by simp)
        · obtain ⟨⟨ms, cs⟩, hms, heq⟩ := Option.map_eq_some_iff.1 h
          exact (Prod.mk.inj heq).1 ▸ .object (hmembers _ _ _ hms)
      · exact (Prod.mk.inj (Option.some.inj h)).1 ▸ .null
      · exact (Prod.mk.inj (Option.some.inj h)).1 ▸ .bool true
      · exact (Prod.mk.inj (Option.some.inj h)).1 ▸ .bool false
      · obtain ⟨⟨l, cs⟩, -, heq⟩ := Option.map_eq_some_iff.1 h
        exact (Prod.mk.inj heq).1 ▸ .number fun x hx => Literal.isFinite_of_number? hx
    · rw [readElements?] at h
      obtain ⟨⟨x, cs⟩, hx, h⟩ := Option.bind_eq_some_iff.1 h
      dsimp only at h
      split at h
      · obtain ⟨⟨ys, cs⟩, hys, heq⟩ := Option.bind_eq_some_iff.1 h
        obtain ⟨rfl, -⟩ := Prod.mk.inj (Option.some.inj heq)
        exact List.forall_mem_cons.2 ⟨hvalue _ _ _ hx, helements _ _ _ hys⟩
      · obtain ⟨rfl, -⟩ := Prod.mk.inj (Option.some.inj h)
        exact List.forall_mem_singleton.2 (hvalue _ _ _ hx)
      · cases h
    · rw [readMembers?] at h
      split at h
      · obtain ⟨⟨k, cs⟩, -, h⟩ := Option.bind_eq_some_iff.1 h
        dsimp only at h
        split at h
        · obtain ⟨⟨x, cs⟩, hx, h⟩ := Option.bind_eq_some_iff.1 h
          dsimp only at h
          split at h
          · obtain ⟨⟨ns, cs⟩, hns, heq⟩ := Option.bind_eq_some_iff.1 h
            obtain ⟨rfl, -⟩ := Prod.mk.inj (Option.some.inj heq)
            exact List.forall_mem_cons.2 ⟨hvalue _ _ _ hx, hmembers _ _ _ hns⟩
          · obtain ⟨rfl, -⟩ := Prod.mk.inj (Option.some.inj h)
            exact List.forall_mem_singleton.2 (hvalue _ _ _ hx)
          · cases h
        · cases h
      · cases h

/-- No text reads as a document with an infinity in it. -/
theorem isFinite_of_parse {text : String} {j : Json} (h : parse text = some j) : j.IsFinite := by
  obtain ⟨⟨j', rest⟩, hread, h⟩ := Option.bind_eq_some_iff.1 h
  dsimp only at h
  split at h
  · exact Option.some.inj h ▸ (isFinite_of_read _).1 _ _ _ hread
  · cases h

end FormRules.Json
