import FormRules.Field.Parser
import Mathlib.Data.List.Forall2
import Mathlib.Data.List.TakeWhile

/-!
# The grammar of field identifiers

The reader of field identifiers goes from left to right and takes as much as it can: blanks, a name,
values up to a colon or comma, blanks again. The grammar is said the other way round, from the commas
inwards: the text is cut at its commas, and each piece spells a selector by itself
(`Selector.Spells`). `Spec.parse_spells` says that both accept the same texts and give the same
selectors, so a comma can not be taken for anything but the end of a piece.

What makes them agree is that the characters of a name are neither blank nor separators, so that
the reader stops where the piece has its next part: `Selector.read_of_spells` follows it through a
piece of the grammar, and `Selector.spells_of_read` finds the piece in what it has read.
-/

namespace FormRules

open Text

/-! ## Pieces -/

namespace Text

/-- A text without the separator is one piece. -/
theorem splitOn_of_notMem {sep : Char} {cs : List Char} (h : sep ∉ cs) : splitOn sep cs = [cs] := by
  induction cs with
  | nil => rfl
  | cons c cs ih =>
    obtain ⟨hc, hcs⟩ : sep ≠ c ∧ sep ∉ cs := by simpa using h
    rw [splitOn, if_neg (Ne.symm hc), ih hcs]

/-- The first separator ends the first piece. -/
theorem splitOn_append_cons {sep : Char} {piece : List Char} (h : sep ∉ piece) (cs : List Char) :
    splitOn sep (piece ++ sep :: cs) = piece :: splitOn sep cs := by
  induction piece with
  | nil => simp [splitOn]
  | cons c piece ih =>
    obtain ⟨hc, hpiece⟩ : sep ≠ c ∧ sep ∉ piece := by simpa using h
    rw [List.cons_append, splitOn, if_neg (Ne.symm hc), ih hpiece]

/-- A text has one piece, or a first one and others behind a separator. -/
theorem splitOn_cases (sep : Char) (cs : List Char) :
    (sep ∉ cs ∧ splitOn sep cs = [cs]) ∨ ∃ piece rest, sep ∉ piece ∧ cs = piece ++ sep :: rest ∧
      splitOn sep cs = piece :: splitOn sep rest := by
  by_cases h : sep ∈ cs
  · obtain ⟨piece, rest, rfl, hpiece⟩ := List.eq_append_cons_of_mem h
    exact Or.inr ⟨piece, rest, hpiece, rfl, splitOn_append_cons hpiece rest⟩
  · exact Or.inl ⟨h, splitOn_of_notMem h⟩

/-- Characters of a class, in front of one that is not of the class. -/
theorem takeWhile_dropWhile_append {p : Char → Bool} {front back : List Char}
    (hfront : ∀ c ∈ front, p c = true) (hback : ∀ c ∈ back.head?, p c = false) :
    (front ++ back).takeWhile p = front ∧ (front ++ back).dropWhile p = back := by
  rw [List.takeWhile_append_of_pos hfront, List.dropWhile_append_of_pos hfront]
  cases back with
  | nil => simp
  | cons c back =>
    have hc : p c = false := hback c rfl
    simp [hc]

/-- What is left of a text does not begin with what was cut. -/
theorem not_of_mem_head?_dropWhile (p : Char → Bool) (cs : List Char) :
    ∀ c ∈ (cs.dropWhile p).head?, p c = false := by
  intro c hc
  have hnot := List.head?_dropWhile_not p cs
  rw [Option.mem_def.1 hc] at hnot
  exact hnot

end Text

namespace Selector

/-- A piece spells a selector: blanks, a name, and then blanks again, or a colon and the values. The
values are what stands between the further colons, without the blanks behind them. -/
inductive Spells : List Char → Selector → Prop
  | name {lead name trail : List Char} (hlead : ∀ c ∈ lead, isBlank c = true) (hne : name ≠ [])
      (hname : ∀ c ∈ name, isNameChar c = true) (htrail : ∀ c ∈ trail, isBlank c = true) :
      Spells (lead ++ (name ++ trail)) ⟨String.ofList name, []⟩
  | values {lead name : List Char} (hlead : ∀ c ∈ lead, isBlank c = true) (hne : name ≠ [])
      (hname : ∀ c ∈ name, isNameChar c = true) (tail : List Char) :
      Spells (lead ++ (name ++ ':' :: tail))
        ⟨String.ofList name, (splitOn ':' tail).map fun v => String.ofList (trimEnd v)⟩

/-- The characters of a name are neither blank nor separators. -/
theorem isNameChar_iff {c : Char} :
    isNameChar c = true ↔ c ≠ ',' ∧ c ≠ ':' ∧ isBlank c = false := by
  simp [isNameChar, and_assoc]

theorem isValueChar_eq_false_iff {c : Char} : isValueChar c = false ↔ c = ',' ∨ c = ':' := by
  simp only [isValueChar, Bool.and_eq_false_iff, bne_eq_false_iff_eq]

/-! ## The reader and the pieces -/

/-- Where a piece ends. -/
def EndsPiece (rest : List Char) : Prop := rest.head?.all (· == ',') = true

theorem EndsPiece.head {rest : List Char} (h : EndsPiece rest) : ∀ c ∈ rest.head?, c = ',' := by
  intro c hc
  simpa [EndsPiece, Option.mem_def.1 hc] using h

/-- There are no values without a colon. -/
theorem readValues_of_ne_colon {cs : List Char} (h : ∀ c ∈ cs.head?, c ≠ ':') :
    readValues cs = ([], cs) := by
  unfold readValues
  split
  · next cs => exact absurd rfl (h ':' rfl)
  · rfl

/-- Values are read up to the next comma, and cut at the colons between. -/
theorem readValues_colon (cs : List Char) : readValues (':' :: cs) =
    ((splitOn ':' (cs.takeWhile (· != ','))).map fun v => String.ofList (trimEnd v),
      cs.dropWhile (· != ',')) := by
  obtain ⟨n, hn⟩ : ∃ n, cs.length ≤ n := ⟨_, Nat.le_refl _⟩
  induction n generalizing cs with
  | zero =>
    obtain rfl : cs = [] := List.length_eq_zero_iff.1 (Nat.le_zero.1 hn)
    rw [readValues, readValues_of_ne_colon (by simp)]
    rfl
  | succ n ih =>
    have hvalue : ∀ c ∈ cs.takeWhile isValueChar, c ≠ ',' ∧ c ≠ ':' := by
      intro c hc
      simpa [isValueChar] using List.mem_takeWhile_imp hc
    have hcut : cs.takeWhile isValueChar ++ cs.dropWhile isValueChar = cs :=
      List.takeWhile_append_dropWhile
    have hhead := not_of_mem_head?_dropWhile isValueChar cs
    rw [readValues]
    generalize cs.takeWhile isValueChar = value at *
    generalize cs.dropWhile isValueChar = rest at *
    subst hcut
    have hcomma : ∀ c ∈ value, (c != ',') = true := fun c hc => by simpa using (hvalue c hc).1
    have hcolon : ':' ∉ value := fun h => (hvalue ':' h).2 rfl
    rw [List.takeWhile_append_of_pos hcomma, List.dropWhile_append_of_pos hcomma]
    cases rest with
    | nil =>
      rw [readValues_of_ne_colon (by simp)]
      simp [splitOn_of_notMem hcolon]
    | cons c rest =>
      rcases isValueChar_eq_false_iff.1 (hhead c rfl) with rfl | rfl
      · rw [readValues_of_ne_colon (by simp)]
        simp [splitOn_of_notMem hcolon]
      · have hshort : rest.length ≤ n := by simp at hn; omega
        rw [ih rest hshort]
        simp [splitOn_append_cons hcolon]

theorem comma_ne_blank {c : Char} (h : isBlank c = true) : c ≠ ',' := by
  rintro rfl
  exact absurd h (by decide)

theorem colon_ne_blank {c : Char} (h : isBlank c = true) : c ≠ ':' := by
  rintro rfl
  exact absurd h (by decide)

/-- What is read first: blanks and a name, up to where the name ends. -/
theorem read_name {lead name rest : List Char} (hlead : ∀ c ∈ lead, isBlank c = true)
    (hne : name ≠ []) (hname : ∀ c ∈ name, isNameChar c = true)
    (hrest : ∀ c ∈ rest.head?, isNameChar c = false) :
    read (lead ++ (name ++ rest)) =
      .ok (⟨String.ofList name, (readValues rest).1⟩, trimStart (readValues rest).2) := by
  have hhead : ∀ c ∈ (name ++ rest).head?, isBlank c = false := by
    intro c hc
    cases name with
    | nil => exact absurd rfl hne
    | cons d name =>
      obtain rfl : d = c := by simpa using hc
      exact (isNameChar_iff.1 (hname d List.mem_cons_self)).2.2
  have hstart : trimStart (lead ++ (name ++ rest)) = name ++ rest :=
    (takeWhile_dropWhile_append hlead hhead).2
  obtain ⟨htake, hdrop⟩ := takeWhile_dropWhile_append hname hrest
  simp only [read, hstart, htake, hdrop, if_neg hne]

/-- Behind a piece there is no blank to skip. -/
theorem trimStart_of_endsPiece {rest : List Char} (h : EndsPiece rest) : trimStart rest = rest := by
  cases rest with
  | nil => rfl
  | cons c rest =>
    obtain rfl : c = ',' := h.head c rfl
    rfl

/-- The reader reads a selector from a piece that spells it, and stops where the piece ends. -/
theorem read_of_spells {piece rest : List Char} {s : Selector} (h : Spells piece s)
    (hcomma : ',' ∉ piece) (hrest : EndsPiece rest) : read (piece ++ rest) = .ok (s, rest) := by
  cases h with
  | @name lead name trail hlead hne hname htrail =>
    have hhead : ∀ c ∈ (trail ++ rest).head?, isBlank c = true ∨ c = ',' := by
      intro c hc
      cases trail with
      | nil => exact Or.inr (hrest.head c hc)
      | cons d trail =>
        obtain rfl : d = c := by simpa using hc
        exact Or.inl (htrail d List.mem_cons_self)
    have hend : ∀ c ∈ (trail ++ rest).head?, isNameChar c = false := by
      intro c hc
      rw [← Bool.not_eq_true, isNameChar_iff]
      rintro ⟨hcomma', -, hblank⟩
      rcases hhead c hc with h | h
      · simp [hblank] at h
      · exact hcomma' h
    have hvalues : readValues (trail ++ rest) = ([], trail ++ rest) := by
      refine readValues_of_ne_colon fun c hc => ?_
      rcases hhead c hc with h | rfl
      · exact colon_ne_blank h
      · decide
    have htrim : trimStart (trail ++ rest) = rest := by
      rw [trimStart, List.dropWhile_append_of_pos htrail]
      exact trimStart_of_endsPiece hrest
    rw [List.append_assoc, List.append_assoc, read_name hlead hne hname hend, hvalues, htrim]
  | @values lead name hlead hne hname tail =>
    have htail : ∀ c ∈ tail, (c != ',') = true := by
      intro c hc
      rw [bne_iff_ne]
      rintro rfl
      simp [hc] at hcomma
    have hback : ∀ c ∈ rest.head?, (c != ',') = false := by
      intro c hc
      rw [hrest.head c hc]
      rfl
    have hend : ∀ c ∈ (':' :: (tail ++ rest)).head?, isNameChar c = false := by
      intro c hc
      obtain rfl : ':' = c := by simpa using hc
      decide
    obtain ⟨htake, hdrop⟩ := takeWhile_dropWhile_append htail hback
    rw [List.append_assoc, List.append_assoc, List.cons_append, read_name hlead hne hname hend,
      readValues_colon, htake, hdrop, trimStart_of_endsPiece hrest]

/-- What the reader has read is a piece that spells the selector. -/
theorem spells_of_read {cs left : List Char} {s : Selector} (h : read cs = .ok (s, left)) :
    ∃ piece, cs = piece ++ left ∧ ',' ∉ piece ∧ Spells piece s := by
  have hcs : cs.takeWhile isBlank ++ trimStart cs = cs := List.takeWhile_append_dropWhile
  have hlead : ∀ c ∈ cs.takeWhile isBlank, isBlank c = true := fun c => List.mem_takeWhile_imp
  have hstart : (trimStart cs).takeWhile isNameChar ++ (trimStart cs).dropWhile isNameChar =
      trimStart cs := List.takeWhile_append_dropWhile
  have hname : ∀ c ∈ (trimStart cs).takeWhile isNameChar, isNameChar c = true :=
    fun c => List.mem_takeWhile_imp
  unfold read at h
  dsimp only at h
  generalize trimStart cs = start at *
  generalize cs.takeWhile isBlank = lead at *
  generalize start.takeWhile isNameChar = name at *
  generalize start.dropWhile isNameChar = rest at *
  subst hstart hcs
  split at h
  · simp at h
  next hne =>
  obtain ⟨rfl, rfl⟩ := Prod.mk.inj (Except.ok.inj h)
  have hfront : ',' ∉ lead ++ name := by
    rw [List.mem_append, not_or]
    exact ⟨fun hc => comma_ne_blank (hlead ',' hc) rfl,
      fun hc => (isNameChar_iff.1 (hname ',' hc)).1 rfl⟩
  by_cases hcolon : ∃ tail, rest = ':' :: tail
  · obtain ⟨tail, rfl⟩ := hcolon
    have hcut : tail.takeWhile (· != ',') ++ tail.dropWhile (· != ',') = tail :=
      List.takeWhile_append_dropWhile
    have htail : ',' ∉ tail.takeWhile (· != ',') := fun hc => by
      simpa using List.mem_takeWhile_imp hc
    have hends : EndsPiece (tail.dropWhile (· != ',')) := by
      have hhead := not_of_mem_head?_dropWhile (· != ',') tail
      cases hdrop : tail.dropWhile (· != ',') with
      | nil => rfl
      | cons c rest => simpa [EndsPiece, hdrop] using hhead
    refine ⟨lead ++ (name ++ ':' :: tail.takeWhile (· != ',')), ?_, ?_, ?_⟩
    · rw [readValues_colon, trimStart_of_endsPiece hends]
      simp [hcut]
    · rw [← List.append_assoc, List.mem_append, List.mem_cons]
      rintro (hc | hc | hc)
      · exact hfront hc
      · exact absurd hc (by decide)
      · exact htail hc
    · rw [readValues_colon]
      exact .values hlead hne hname _
  · have hnone : readValues rest = ([], rest) := by
      refine readValues_of_ne_colon fun c hc => ?_
      rintro rfl
      cases rest with
      | nil => simp at hc
      | cons d rest => exact hcolon ⟨rest, by simpa using hc⟩
    have hcut : rest.takeWhile isBlank ++ trimStart rest = rest := List.takeWhile_append_dropWhile
    refine ⟨lead ++ (name ++ rest.takeWhile isBlank), ?_, ?_, ?_⟩
    · rw [hnone]
      simp [hcut]
    · rw [← List.append_assoc, List.mem_append]
      rintro (hc | hc)
      · exact hfront hc
      · exact comma_ne_blank (List.mem_takeWhile_imp hc) rfl
    · rw [hnone]
      exact .name hlead hne hname fun c => List.mem_takeWhile_imp

/-! ## Lists of selectors -/

/-- A text whose first piece spells a selector starts with it for the reader. -/
theorem exists_read_of_spells {cs : List Char} {ss : List Selector}
    (h : List.Forall₂ Spells (splitOn ',' cs) ss) :
    ∃ s rest, s ∈ ss ∧ EndsPiece rest ∧ read cs = .ok (s, rest) := by
  rcases splitOn_cases ',' cs with ⟨hcomma, hsplit⟩ | ⟨piece, rest, hcomma, rfl, hsplit⟩
  · rw [hsplit] at h
    obtain ⟨s, ss, hs, -, rfl⟩ := List.forall₂_cons_left_iff.1 h
    have hread : read (cs ++ []) = .ok (s, []) := read_of_spells hs hcomma rfl
    exact ⟨s, [], List.mem_cons_self, rfl, by rwa [List.append_nil] at hread⟩
  · rw [hsplit] at h
    obtain ⟨s, ss, hs, -, rfl⟩ := List.forall₂_cons_left_iff.1 h
    exact ⟨s, ',' :: rest, List.mem_cons_self, rfl, read_of_spells hs hcomma rfl⟩

/-- A piece spells one selector. -/
theorem Spells.eq {piece : List Char} {s t : Selector} (hs : Spells piece s) (ht : Spells piece t)
    (hcomma : ',' ∉ piece) : s = t := by
  have hs' : read (piece ++ []) = .ok (s, []) := read_of_spells hs hcomma rfl
  have ht' : read (piece ++ []) = .ok (t, []) := read_of_spells ht hcomma rfl
  exact (Prod.mk.inj (Except.ok.inj (hs'.symm.trans ht'))).1

/-- The reader reads to the end of a text exactly if each piece of the text spells a selector, and
then it gives these. The induction is on the pieces: the reader stops at the end of the first one,
and goes on if that is a comma. -/
theorem readAll_iff_spells {cs : List Char} {ss : List Selector} :
    readAll cs = .ok (ss, []) ↔ List.Forall₂ Spells (splitOn ',' cs) ss := by
  fun_induction readAll cs generalizing ss with
  | case1 cs left h =>
    refine ⟨fun hr => by simp at hr, fun hs => ?_⟩
    obtain ⟨s, rest, -, -, hread⟩ := exists_read_of_spells hs
    simp [h] at hread
  | case2 cs s rest h ih =>
    obtain ⟨piece, rfl, hcomma, hspells⟩ := spells_of_read h
    rw [splitOn_append_cons hcomma]
    constructor
    · intro hr
      cases hrest : readAll rest with
      | error left => simp [hrest, Except.map] at hr
      | ok p =>
        obtain ⟨rfl, hleft⟩ : s :: p.1 = ss ∧ p.2 = [] := by simpa [hrest, Except.map] using hr
        exact .cons hspells (ih.1 (by rw [hrest, ← hleft]))
    · intro hs
      obtain ⟨t, ss, ht, hss, rfl⟩ := List.forall₂_cons_left_iff.1 hs
      obtain rfl := hspells.eq ht hcomma
      rw [ih.2 hss]
      rfl
  | case3 cs s left hleft h =>
    obtain ⟨piece, rfl, hcomma, hspells⟩ := spells_of_read h
    constructor
    · intro hr
      obtain ⟨rfl, rfl⟩ := Prod.mk.inj (Except.ok.inj hr)
      rw [List.append_nil, splitOn_of_notMem hcomma]
      exact .cons hspells .nil
    · intro hs
      obtain ⟨t, rest, -, hends, hread⟩ := exists_read_of_spells hs
      obtain ⟨rfl, rfl⟩ := Prod.mk.inj (Except.ok.inj (h.symm.trans hread))
      cases left with
      | nil =>
        rw [List.append_nil, splitOn_of_notMem hcomma] at hs
        obtain ⟨t, ss, ht, hss, rfl⟩ := List.forall₂_cons_left_iff.1 hs
        obtain rfl := List.forall₂_nil_left_iff.1 hss
        rw [hspells.eq ht hcomma]
      | cons c left =>
        obtain rfl : c = ',' := hends.head c rfl
        exact absurd rfl (hleft left)

/-- A list of selectors is read just where its pieces spell them. -/
theorem parseList_iff_spells {text : String} {ss : List Selector} :
    parseList text = .ok ss ↔ List.Forall₂ Spells (splitOn ',' text.toList) ss := by
  rw [← readAll_iff_spells, parseList]
  cases readAll text.toList with
  | error left => simp
  | ok p =>
    obtain ⟨ss', left⟩ := p
    cases left <;> simp

/-- A blank piece spells nothing. -/
theorem Spells.not_blank {piece : List Char} {s : Selector} (h : Spells piece s) :
    piece.all isBlank = false := by
  have hname : ∀ {name : List Char}, name ≠ [] → (∀ c ∈ name, isNameChar c = true) →
      ∃ c ∈ name, isBlank c = false := by
    intro name hne hname
    obtain ⟨c, name, rfl⟩ := List.exists_cons_of_ne_nil hne
    exact ⟨c, List.mem_cons_self, (isNameChar_iff.1 (hname c List.mem_cons_self)).2.2⟩
  cases h with
  | name hlead hne hname' htrail =>
    obtain ⟨c, hc, hblank⟩ := hname hne hname'
    exact List.all_eq_false.2 ⟨c, by simp [hc], by simp [hblank]⟩
  | values hlead hne hname' tail =>
    obtain ⟨c, hc, hblank⟩ := hname hne hname'
    exact List.all_eq_false.2 ⟨c, by simp [hc], by simp [hblank]⟩

end Selector

namespace Spec

/-- A blank text names the whole form. -/
theorem parse_of_blank {text : String} (h : text.toList.all isBlank = true) :
    parse text = .ok .all := by
  rw [parse, if_pos h]

/-- Any other text is a list of selectors. -/
theorem parse_of_not_blank {text : String} (h : text.toList.all isBlank = false) :
    parse text = (Selector.parseList text).map .fields := by
  rw [parse, h]
  rfl

/-- A text whose pieces spell selectors is not blank. -/
theorem not_blank_of_spells {text : String} {ss : List Selector}
    (h : List.Forall₂ Selector.Spells (splitOn ',' text.toList) ss) :
    text.toList.all isBlank = false := by
  rcases splitOn_cases ',' text.toList with ⟨-, hsplit⟩ | ⟨piece, rest, -, htext, -⟩
  · rw [hsplit] at h
    obtain ⟨s, ss, hs, -, rfl⟩ := List.forall₂_cons_left_iff.1 h
    exact hs.not_blank
  · exact List.all_eq_false.2 ⟨',', by simp [htext], by decide⟩

/-- Only blank texts name the whole form. -/
theorem parse_eq_all_iff {text : String} :
    parse text = .ok .all ↔ text.toList.all isBlank = true := by
  refine ⟨fun h => ?_, parse_of_blank⟩
  cases hblank : text.toList.all isBlank with
  | true => rfl
  | false =>
    rw [parse_of_not_blank hblank] at h
    cases hlist : Selector.parseList text <;> simp [hlist, Except.map] at h

/-- A text names fields just where its pieces spell selectors. -/
theorem parse_eq_fields_iff {text : String} {ss : List Selector} :
    parse text = .ok (.fields ss) ↔
      List.Forall₂ Selector.Spells (splitOn ',' text.toList) ss := by
  rw [← Selector.parseList_iff_spells]
  cases hblank : text.toList.all isBlank with
  | true =>
    simp only [parse_of_blank hblank, Except.ok.injEq, reduceCtorEq, false_iff]
    intro h
    rw [not_blank_of_spells (Selector.parseList_iff_spells.1 h)] at hblank
    contradiction
  | false =>
    rw [parse_of_not_blank hblank]
    cases Selector.parseList text <;> simp [Except.map]

/-- Pieces that each spell a selector spell a list of them. -/
theorem exists_forall₂_iff {pieces : List (List Char)} :
    (∃ ss, List.Forall₂ Selector.Spells pieces ss) ↔
      ∀ piece ∈ pieces, ∃ s, Selector.Spells piece s := by
  induction pieces with
  | nil => simp
  | cons piece pieces ih =>
    simp only [List.forall₂_cons_left_iff, List.forall_mem_cons, ← ih]
    grind

/-- A text is refused if it is not blank and one of its pieces spells nothing. -/
theorem parse_eq_error_iff {text : String} :
    (∃ failure, parse text = .error failure) ↔ (∃ c ∈ text.toList, isBlank c = false) ∧
      ∃ piece ∈ splitOn ',' text.toList, ∀ s, ¬ Selector.Spells piece s := by
  have hall := @parse_eq_all_iff text
  have hfields : ∀ ss, parse text = .ok (.fields ss) ↔
      List.Forall₂ Selector.Spells (splitOn ',' text.toList) ss := fun _ => parse_eq_fields_iff
  have hspells := @exists_forall₂_iff (splitOn ',' text.toList)
  cases hparse : parse text with
  | ok spec =>
    cases spec with
    | all =>
      simp only [hparse, true_iff, List.all_eq_true] at hall
      simp +contextual [hall]
    | fields ss =>
      have hread := hspells.1 ⟨ss, (hfields ss).1 hparse⟩
      simp only [reduceCtorEq, exists_false, false_iff, not_and]
      rintro - ⟨piece, hmem, hnone⟩
      exact (hread piece hmem).elim hnone
  | error failure =>
    refine ⟨fun _ => ⟨?_, ?_⟩, fun _ => ⟨failure, rfl⟩⟩
    · simpa [hparse] using hall
    · by_contra h
      obtain ⟨ss, hss⟩ := hspells.2 (by simpa using h)
      rw [← hfields, hparse] at hss
      contradiction

/-- A malformed text is taken for one that names no field. -/
theorem lenient_eq_none_iff {text : String} :
    lenient text = .fields [] ↔ ∃ failure, parse text = .error failure := by
  cases hparse : parse text with
  | error failure => simp [lenient, hparse]
  | ok spec =>
    simp only [lenient, hparse, reduceCtorEq, exists_false, iff_false]
    rintro rfl
    exact splitOn_ne_nil _ _ (List.forall₂_nil_right_iff.1 (parse_eq_fields_iff.1 hparse))

end Spec

/-- The reader of field identifiers accepts exactly its grammar. A text of blanks stands for every
field; any other is read if each piece between its commas spells a selector, and gives these in
order. All other texts are errors, and the lenient reader gives the identifier of no field for
them and for no other text. -/
theorem Spec.parse_spells (text : String) :
    (Spec.parse text = .ok .all ↔ ∀ c ∈ text.toList, isBlank c = true) ∧
    (∀ ss, Spec.parse text = .ok (.fields ss) ↔
      List.Forall₂ Selector.Spells (splitOn ',' text.toList) ss) ∧
    ((∃ failure, Spec.parse text = .error failure) ↔ (∃ c ∈ text.toList, isBlank c = false) ∧
      ∃ piece ∈ splitOn ',' text.toList, ∀ s, ¬ Selector.Spells piece s) ∧
    (Spec.lenient text = .fields [] ↔ ∃ failure, Spec.parse text = .error failure) := by
  refine ⟨?_, fun ss => parse_eq_fields_iff, parse_eq_error_iff, lenient_eq_none_iff⟩
  rw [parse_eq_all_iff, List.all_eq_true]

-- A blank may stand behind a name, but not between it and its colon.
example : Spec.lenient "a , b: x :" = .fields [⟨"a", []⟩, ⟨"b", [" x", ""]⟩] := by decide +kernel

example : Spec.lenient "a :x" = .fields [] := by decide +kernel

end FormRules
