import FormRules.Proofs.Writing

/-!
# Where reading fails

Reading a list of selectors fails where a name should start, or where selectors have ended and text is
left. Either way the reader does not look behind the character in front of which it stops: with other
text behind this character it stops there again (`Selector.StopsAt`). And what it has taken is fine as
far as it goes, since a name can be added, or nothing at all. So the failure is where the text stops
to be the beginning of an identifier (`Selector.failure_at_longest_start`), and which of the two it is
can be seen from what stands in front.
-/

namespace FormRules

open Text

namespace Text

/-- Blanks at the end reach into the first part only if there is nothing else in the second. -/
theorem trimEnd_append (as bs : List Char) :
    trimEnd (as ++ bs) = if trimEnd bs = [] then trimEnd as else as ++ trimEnd bs := by
  simp only [trimEnd, List.reverse_append, List.reverse_eq_nil_iff, List.dropWhile_append,
    List.isEmpty_iff]
  split <;> simp

theorem trimEnd_eq_nil_iff {cs : List Char} : trimEnd cs = [] ↔ ∀ c ∈ cs, isBlank c = true := by
  simp [trimEnd, List.dropWhile_eq_nil_iff]

/-- A separator ends the pieces in front of it. -/
theorem splitOn_append_sep (sep : Char) (as bs : List Char) :
    splitOn sep (as ++ sep :: bs) = splitOn sep as ++ splitOn sep bs := by
  induction as with
  | nil => simp [splitOn]
  | cons a as ih =>
    rw [List.cons_append, splitOn, splitOn, ih]
    split
    · rfl
    · cases h : splitOn sep as with
      | nil => exact absurd h (splitOn_ne_nil sep as)
      | cons piece pieces => rfl

end Text

namespace Selector

variable {cs left rest front : List Char} {s : Selector}

/-! ## One selector -/

/-- Where no name starts, the reader takes the blanks and does not look behind the next character. -/
theorem read_eq_error (h : read cs = .error left) : ∃ lead, cs = lead ++ left ∧
    (∀ c ∈ lead, isBlank c = true) ∧ ∀ c more, left.head? = some c →
      read (lead ++ c :: more) = .error (c :: more) := by
  have hcs : cs.takeWhile isBlank ++ trimStart cs = cs := List.takeWhile_append_dropWhile
  have hlead : ∀ c ∈ cs.takeWhile isBlank, isBlank c = true := fun c => List.mem_takeWhile_imp
  have hblank : ∀ c ∈ (trimStart cs).head?, isBlank c = false := not_of_mem_head?_dropWhile isBlank cs
  unfold read at h
  dsimp only at h
  split at h
  · next hname =>
    obtain rfl := Except.error.inj h
    refine ⟨_, hcs.symm, hlead, fun c more hc => ?_⟩
    have hstart : trimStart (cs.takeWhile isBlank ++ c :: more) = c :: more :=
      (takeWhile_dropWhile_append hlead (by simpa using hblank c hc)).2
    have hnone : (c :: more).takeWhile isNameChar = [] := by
      obtain ⟨more', hleft⟩ : ∃ more', trimStart cs = c :: more' := by
        cases hleft : trimStart cs with
        | nil => simp [hleft] at hc
        | cons d more' => exact ⟨more', by simpa [hleft] using hc⟩
      rw [hleft] at hname
      simpa [List.takeWhile_eq_nil_iff] using hname
    simp only [read, hstart, hnone, if_pos]
  · simp at h

/-- Where the reader stops behind a selector, not at a comma, there are blanks behind a name. Values
are read up to the end of the piece, so behind them the reader would stop at a comma; and directly
behind a name there could only be a colon or a comma. -/
theorem read_eq_left {c : Char} (h : read cs = .ok (s, c :: left)) (hc : c ≠ ',') :
    ∃ lead name trail, cs = lead ++ (name ++ (trail ++ c :: left)) ∧
      (∀ c ∈ lead, isBlank c = true) ∧ name ≠ [] ∧ (∀ c ∈ name, isNameChar c = true) ∧
      trail ≠ [] ∧ (∀ c ∈ trail, isBlank c = true) ∧ isBlank c = false ∧
      s = ⟨String.ofList name, []⟩ := by
  have hcs : cs.takeWhile isBlank ++ trimStart cs = cs := List.takeWhile_append_dropWhile
  have hlead : ∀ c ∈ cs.takeWhile isBlank, isBlank c = true := fun c => List.mem_takeWhile_imp
  have hstart : (trimStart cs).takeWhile isNameChar ++ (trimStart cs).dropWhile isNameChar =
      trimStart cs := List.takeWhile_append_dropWhile
  have hname : ∀ c ∈ (trimStart cs).takeWhile isNameChar, isNameChar c = true :=
    fun c => List.mem_takeWhile_imp
  have hend := not_of_mem_head?_dropWhile isNameChar (trimStart cs)
  unfold read at h
  dsimp only at h
  generalize trimStart cs = start at *
  generalize cs.takeWhile isBlank = lead at *
  generalize start.takeWhile isNameChar = name at *
  generalize start.dropWhile isNameChar = rest at *
  subst hstart hcs
  split at h
  · simp at h
  next hne =>
  obtain ⟨rfl, hleft⟩ := Prod.mk.inj (Except.ok.inj h)
  by_cases hcolon : ∃ tail, rest = ':' :: tail
  · obtain ⟨tail, rfl⟩ := hcolon
    have hhead := not_of_mem_head?_dropWhile (· != ',') tail
    rw [readValues_colon] at hleft
    cases hdrop : tail.dropWhile (· != ',') with
    | nil => simp [hdrop, trimStart] at hleft
    | cons d rest =>
      obtain rfl : d = ',' := by simpa [hdrop] using hhead
      rw [hdrop, trimStart_of_endsPiece (show EndsPiece (',' :: rest) from rfl)] at hleft
      exact absurd (List.cons.inj hleft).1.symm hc
  · have hnone : readValues rest = ([], rest) := by
      refine readValues_of_ne_colon fun d hd => ?_
      rintro rfl
      cases rest with
      | nil => simp at hd
      | cons d rest => exact hcolon ⟨rest, by simpa using hd⟩
    have hcut : rest.takeWhile isBlank ++ trimStart rest = rest := List.takeWhile_append_dropWhile
    have hblank : ∀ c ∈ (trimStart rest).head?, isBlank c = false :=
      not_of_mem_head?_dropWhile isBlank rest
    rw [hnone] at hleft
    rw [hleft] at hcut hblank
    refine ⟨lead, name, rest.takeWhile isBlank, by rw [hcut], hlead, hne, hname, fun hnil => ?_,
      fun c => List.mem_takeWhile_imp, hblank c rfl, by rw [hnone]⟩
    rw [hnil, List.nil_append] at hcut
    subst hcut
    have hchar := hend c rfl
    rw [← Bool.not_eq_true, isNameChar_iff] at hchar
    refine hchar ⟨hc, fun h => hcolon ⟨left, by rw [h]⟩, hblank c rfl⟩

/-- Blanks behind a name end the selector, whatever follows. -/
theorem read_name_blanks {lead name trail back : List Char} (hlead : ∀ c ∈ lead, isBlank c = true)
    (hne : name ≠ []) (hname : ∀ c ∈ name, isNameChar c = true) (htrail : trail ≠ [])
    (hblanks : ∀ c ∈ trail, isBlank c = true) (hback : ∀ c ∈ back.head?, isBlank c = false) :
    read (lead ++ (name ++ (trail ++ back))) = .ok (⟨String.ofList name, []⟩, back) := by
  have hhead : ∀ c ∈ (trail ++ back).head?, isBlank c = true := by
    intro c hc
    cases trail with
    | nil => exact absurd rfl htrail
    | cons d trail =>
      obtain rfl : d = c := by simpa using hc
      exact hblanks d List.mem_cons_self
  have hend : ∀ c ∈ (trail ++ back).head?, isNameChar c = false := by
    intro c hc
    rw [← Bool.not_eq_true, isNameChar_iff]
    simp [hhead c hc]
  rw [read_name hlead hne hname hend, readValues_of_ne_colon fun c hc => colon_ne_blank (hhead c hc)]
  have htrim : trimStart (trail ++ back) = back := (takeWhile_dropWhile_append hblanks hback).2
  rw [htrim]

/-! ## Lists of selectors -/

theorem readAll_of_read_error (h : read cs = .error left) : readAll cs = .error left := by
  unfold readAll
  split <;> simp_all

/-- Without a comma behind it a selector is the last one. -/
theorem readAll_of_read (h : read cs = .ok (s, left)) (hleft : left.head? ≠ some ',') :
    readAll cs = .ok ([s], left) := by
  unfold readAll
  split
  · simp_all
  · next rest h' =>
    obtain ⟨rfl, rfl⟩ := Prod.mk.inj (Except.ok.inj (h.symm.trans h'))
    exact absurd rfl hleft
  · next h' =>
    obtain ⟨rfl, rfl⟩ := Prod.mk.inj (Except.ok.inj (h.symm.trans h'))
    rfl

/-- Behind a piece and a comma reading starts anew. -/
theorem readAll_of_spells {piece : List Char} (h : Spells piece s) (hcomma : ',' ∉ piece)
    (rest : List Char) :
    readAll (piece ++ ',' :: rest) = (readAll rest).map fun (ss, left) => (s :: ss, left) := by
  have hread : read (piece ++ ',' :: rest) = .ok (s, ',' :: rest) := read_of_spells h hcomma rfl
  rw [readAll]
  split
  · next h' => simp [hread] at h'
  · next h' =>
    obtain ⟨rfl, hrest⟩ := Prod.mk.inj (Except.ok.inj (hread.symm.trans h'))
    rw [(List.cons.inj hrest).2]
  · next left hleft h' =>
    obtain ⟨rfl, rfl⟩ := Prod.mk.inj (Except.ok.inj (hread.symm.trans h'))
    exact absurd rfl (hleft rest)

/-! ## Stops -/

/-- What was missing behind some text. -/
def expectedBehind (front : List Char) : Expected :=
  if trimEnd front = [] ∨ (trimEnd front).getLast? = some ',' then .fieldName else .endOfPiece

/-- Only what is behind the last comma matters. -/
theorem expectedBehind_behind (piece front : List Char) :
    expectedBehind (piece ++ ',' :: front) = expectedBehind front := by
  have hcomma : trimEnd [','] = [','] := rfl
  have hlast : trimEnd (',' :: front) = ',' :: trimEnd front := by
    have hparts := trimEnd_append [','] front
    split at hparts
    · next hnil => rw [hnil, ← hcomma, ← hparts, List.singleton_append]
    · simpa using hparts
  have hcons : trimEnd (piece ++ ',' :: front) = piece ++ ',' :: trimEnd front := by
    rw [trimEnd_append, hlast, if_neg (List.cons_ne_nil _ _)]
  unfold expectedBehind
  rw [hcons, List.getLast?_append_of_ne_nil _ (List.cons_ne_nil _ _)]
  cases trimEnd front with
  | nil => simp
  | cons d rest => simp [List.getLast?_cons]

/-- Where the reader has failed. -/
def stop? : Except (List Char) (List Selector × List Char) → Option (List Char × Expected)
  | .error left => some (left, .fieldName)
  | .ok (_, []) => none
  | .ok (_, left) => some (left, .endOfPiece)

/-- A selector in front does not change where the reader stops. -/
theorem stop?_map (s : Selector) (result : Except (List Char) (List Selector × List Char)) :
    stop? (result.map fun (ss, left) => (s :: ss, left)) = stop? result := by
  rcases result with left | ⟨ss, _ | ⟨c, left⟩⟩ <;> rfl

/-- The reader takes `front` and stops there, whatever is behind the next character. With some more
text instead, `front` is read to its end. -/
structure StopsAt (front left : List Char) (expected : Expected) : Prop where
  reason : expected = expectedBehind front
  completes : ∃ more ss, readAll (front ++ more) = .ok (ss, [])
  stops : ∀ c more, left.head? = some c →
    stop? (readAll (front ++ c :: more)) = some (c :: more, expected)

/-- A selector of its own and a comma in front do not matter for where the reader stops. -/
theorem StopsAt.behind {piece : List Char} {expected : Expected} (hspells : Spells piece s)
    (hcomma : ',' ∉ piece) (h : StopsAt front left expected) :
    StopsAt (piece ++ ',' :: front) left expected := by
  refine ⟨?_, ?_, fun c more hc => ?_⟩
  · rw [h.reason, expectedBehind_behind]
  · obtain ⟨more, ss, hread⟩ := h.completes
    refine ⟨more, s :: ss, ?_⟩
    rw [List.append_assoc, List.cons_append, readAll_of_spells hspells hcomma, hread]
    rfl
  · rw [List.append_assoc, List.cons_append, readAll_of_spells hspells hcomma, stop?_map,
      h.stops c more hc]

/-- Where no name starts, one can be added. -/
theorem stopsAt_of_read_error (h : read cs = .error left) :
    ∃ front, cs = front ++ left ∧ StopsAt front left .fieldName := by
  obtain ⟨lead, rfl, hlead, hstops⟩ := read_eq_error h
  refine ⟨lead, rfl, ?_, ⟨['a'], [⟨"a", []⟩], ?_⟩, fun c more hc => ?_⟩
  · rw [expectedBehind, if_pos (.inl (trimEnd_eq_nil_iff.2 hlead))]
  · have hspells : Spells (lead ++ (['a'] ++ [])) ⟨String.ofList ['a'], []⟩ :=
      .name hlead (by simp) (List.all_eq_true.1 rfl) (by simp)
    have hcomma : ',' ∉ lead ++ (['a'] ++ []) := by
      simpa using fun hc => comma_ne_blank (hlead ',' hc) rfl
    have hread : read (lead ++ (['a'] ++ []) ++ []) = .ok (⟨"a", []⟩, []) :=
      read_of_spells hspells hcomma rfl
    rw [List.append_nil, List.append_nil] at hread
    exact readAll_of_read hread (by simp)
  · rw [readAll_of_read_error (hstops c more hc)]
    rfl

/-- Where a selector has ended, nothing need be added. -/
theorem stopsAt_of_read {c : Char} (h : read cs = .ok (s, c :: left)) (hc : c ≠ ',') :
    ∃ front, cs = front ++ c :: left ∧ StopsAt front (c :: left) .endOfPiece := by
  obtain ⟨lead, name, trail, rfl, hlead, hne, hname, htrail, hblanks, hblank, rfl⟩ :=
    read_eq_left h hc
  have hread : ∀ back, (∀ d ∈ back.head?, isBlank d = false) → back.head? ≠ some ',' →
      readAll (lead ++ (name ++ trail) ++ back) = .ok ([⟨String.ofList name, []⟩], back) := by
    intro back hback hcomma
    rw [List.append_assoc, List.append_assoc]
    exact readAll_of_read (read_name_blanks hlead hne hname htrail hblanks hback) hcomma
  refine ⟨lead ++ (name ++ trail), by simp, ?_, ⟨[], _, hread [] (by simp) (by simp)⟩,
    fun d more hd => ?_⟩
  · have hend : trimEnd (lead ++ (name ++ trail)) = lead ++ name := by
      rw [← List.append_assoc, trimEnd_append, if_pos (trimEnd_eq_nil_iff.2 hblanks)]
      refine trimEnd_of_getLast? fun d hd => ?_
      rw [List.getLast?_append_of_ne_nil _ hne] at hd
      exact (isNameChar_iff.1 (hname d (List.mem_of_getLast? hd))).2.2
    have hlast : (lead ++ name).getLast? ≠ some ',' := by
      rw [List.getLast?_append_of_ne_nil _ hne]
      exact fun hd => (isNameChar_iff.1 (hname ',' (List.mem_of_getLast? hd))).1 rfl
    have hnil : lead ++ name ≠ [] := List.append_ne_nil_of_right_ne_nil lead hne
    rw [expectedBehind, hend, if_neg (not_or.2 ⟨hnil, hlast⟩)]
  · obtain rfl : c = d := by simpa using hd
    rw [hread (c :: more) (by simpa using hblank) (by simpa using hc)]
    rfl

/-- Where the reader fails it stops. -/
theorem stopsAt_of_stop? {expected : Expected} (h : stop? (readAll cs) = some (left, expected)) :
    ∃ front, cs = front ++ left ∧ StopsAt front left expected := by
  fun_induction readAll cs with
  | case1 cs left' hread =>
    obtain ⟨rfl, rfl⟩ := Prod.mk.inj (Option.some.inj h)
    exact stopsAt_of_read_error hread
  | case2 cs s rest hread ih =>
    obtain ⟨piece, rfl, hcomma, hspells⟩ := spells_of_read hread
    rw [stop?_map] at h
    obtain ⟨front, rfl, hstops⟩ := ih h
    exact ⟨piece ++ ',' :: front, by simp, hstops.behind hspells hcomma⟩
  | case3 cs s left' hleft hread =>
    cases left' with
    | nil => simp [stop?] at h
    | cons c left' =>
      obtain ⟨rfl, rfl⟩ := Prod.mk.inj (Option.some.inj h)
      exact stopsAt_of_read hread fun hc => hleft left' (by rw [hc])

/-! ## Beginnings of identifiers -/

/-- Some list of selectors begins so. -/
def IsViable (front : List Char) : Prop :=
  ∃ more ss, parseList (String.ofList (front ++ more)) = .ok ss

/-- As much of a text, from its beginning, as a list of selectors can begin with. -/
structure IsLongestStart (text front : List Char) : Prop where
  start : front <+: text
  viable : IsViable front
  longest : ∀ longer, longer <+: text → IsViable longer → longer <+: front

theorem parseList_eq_ok_iff {text : String} {ss : List Selector} :
    parseList text = .ok ss ↔ readAll text.toList = .ok (ss, []) := by
  rw [parseList_iff_spells, readAll_iff_spells]

theorem parseList_eq_error_iff {text : String} {failure : ParseFailure} :
    parseList text = .error failure ↔ ∃ left, failure.offset =
      byteSize text.toList - byteSize left ∧
        stop? (readAll text.toList) = some (left, failure.expected) := by
  obtain ⟨offset, expected⟩ := failure
  simp only [parseList]
  rcases readAll text.toList with left | ⟨ss, _ | ⟨c, left⟩⟩ <;> simp [stop?, and_comm, eq_comm]

/-- Where the reader stops before a character, it would stop there in every text that begins so. -/
theorem StopsAt.isLongestStart {expected : Expected} (h : StopsAt front left expected) :
    IsLongestStart (front ++ left) front := by
  obtain ⟨more, ss, hread⟩ := h.completes
  refine ⟨List.prefix_append front left, ⟨more, ss, ?_⟩, fun longer hlonger hviable => ?_⟩
  · rwa [parseList_eq_ok_iff, String.toList_ofList]
  · rcases List.prefix_or_prefix_of_prefix hlonger (List.prefix_append front left) with h' | h'
    · exact h'
    · obtain ⟨taken, rfl⟩ := h'
      cases taken with
      | nil => simp
      | cons c taken =>
        obtain ⟨more, ss, hparse⟩ := hviable
        rw [parseList_eq_ok_iff, String.toList_ofList, List.append_assoc, List.cons_append] at hparse
        obtain ⟨rest, hrest⟩ := (List.prefix_append_right_inj front).1 hlonger
        have hstop := h.stops c (taken ++ more) (by rw [← hrest]; rfl)
        rw [hparse] at hstop
        cases hstop

end Selector

namespace ParseError

/-- The lines of the detail of an error. -/
def lines (e : ParseError) : List (List Char) := splitOn '\n' e.detail.toList

theorem newline_notMem_expectation (expected : Expected) : '\n' ∉ expectation expected := by
  cases expected <;> decide

/-- Under the caret stands what was expected. -/
theorem detail_eq (e : ParseError) : ∃ picture, e.detail.toList =
    picture ++ '^' :: '\n' :: expectation e.failure.expected := by
  have hcaret : ∀ picture last : List Char,
      picture ++ "^\n".toList ++ last = picture ++ '^' :: '\n' :: last := by simp
  simp only [detail, String.toList_ofList]
  split
  · exact ⟨_, hcaret _ _⟩
  · exact ⟨_, hcaret _ _⟩

theorem getLast?_lines (e : ParseError) :
    e.lines.getLast? = some (expectation e.failure.expected) := by
  obtain ⟨picture, hdetail⟩ := e.detail_eq
  rw [lines, hdetail, List.append_cons, splitOn_append_sep,
    splitOn_of_notMem (newline_notMem_expectation _)]
  simp

/-- Of a text of one line the picture is the text, and the caret under the byte. -/
theorem lines_of_notMem {e : ParseError} (h : '\n' ∉ e.input.toList) : e.lines =
    [e.input.toList, List.replicate e.failure.offset ' ' ++ ['^'], expectation e.failure.expected] := by
  have hcaret : '\n' ∉ List.replicate e.failure.offset ' ' ++ ['^'] := by
    simp [List.mem_replicate]
  simp only [lines, detail, String.toList_ofList, if_neg h]
  rw [show ∀ a b c : List Char, a ++ '\n' :: b ++ "^\n".toList ++ c =
    a ++ '\n' :: ((b ++ ['^']) ++ '\n' :: c) by simp]
  rw [splitOn_append_cons h, splitOn_append_cons hcaret,
    splitOn_of_notMem (newline_notMem_expectation _)]

end ParseError

namespace Selector

/-- Reading fails at the end of the longest part of the text that a list of selectors can begin with,
and says that a name was expected where this part is blank or ends in a comma. -/
theorem failure_at_longest_start {text : String} {failure : ParseFailure}
    (h : parseList text = .error failure) : ∃ front, IsLongestStart text.toList front ∧
      failure.offset = byteSize front ∧
      (ParseError.lines ⟨text, failure⟩).getLast? = some
        (if trimEnd front = [] ∨ (trimEnd front).getLast? = some ','
          then "expected field name".toList else []) ∧
      ('\n' ∉ text.toList → (ParseError.lines ⟨text, failure⟩).take 2 =
        [text.toList, List.replicate (byteSize front) ' ' ++ ['^']]) := by
  obtain ⟨left, hoffset, hstop⟩ := parseList_eq_error_iff.1 h
  obtain ⟨front, hcut, hstops⟩ := stopsAt_of_stop? hstop
  have hfront : failure.offset = byteSize front := by
    rw [hoffset, hcut, byteSize_append, Nat.add_sub_cancel]
  refine ⟨front, hcut ▸ hstops.isLongestStart, hfront, ?_, fun hline => ?_⟩
  · rw [ParseError.getLast?_lines, hstops.reason, expectedBehind]
    split <;> rfl
  · rw [ParseError.lines_of_notMem hline, hfront]
    rfl

/-- A name is followed by a blank, and then by what is neither a comma nor the end. -/
theorem failure_behind_blank : parseList "größe :x" = .error ⟨8, .endOfPiece⟩ ∧
    ∃ front, IsLongestStart "größe :x".toList front ∧ 8 = byteSize front ∧
      (ParseError.lines ⟨"größe :x", ⟨8, .endOfPiece⟩⟩).getLast? = some
        (if trimEnd front = [] ∨ (trimEnd front).getLast? = some ','
          then "expected field name".toList else []) ∧
      ('\n' ∉ "größe :x".toList → (ParseError.lines ⟨"größe :x", ⟨8, .endOfPiece⟩⟩).take 2 =
        ["größe :x".toList, List.replicate (byteSize front) ' ' ++ ['^']]) :=
  have h : parseList "größe :x" = .error ⟨8, .endOfPiece⟩ := by
    have hread : read ([] ++ ("größe".toList ++ ([' '] ++ ":x".toList))) =
        .ok (⟨"größe", []⟩, ":x".toList) :=
      read_name_blanks (by simp) (by decide) (List.all_eq_true.1 rfl) (by decide)
        (List.all_eq_true.1 rfl) (by simp [isBlank])
    exact parseList_eq_error_iff.2 ⟨":x".toList, by decide, by
      rw [show "größe :x".toList = [] ++ ("größe".toList ++ ([' '] ++ ":x".toList)) from rfl,
        readAll_of_read hread (by decide)]
      rfl⟩
  ⟨h, failure_at_longest_start h⟩

end Selector

end FormRules
