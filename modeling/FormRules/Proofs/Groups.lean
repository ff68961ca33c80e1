import FormRules.Proofs.Readers

/-!
# Repetitions and groups with something behind

The bounds of a counted repetition and the signs that make a group special, flags and names among
them. Flags are read up to a parenthesis, so flags that the text leaves open are ended by the
closing one (`readFlags_closing`).
-/

namespace FormRules.Pattern

open Text

/-! ## Repetitions -/

theorem trimStart_suffix (cs : List Char) : trimStart cs <:+ cs := List.dropWhile_suffix _

/-- The closing is no blank, so blanks end where they did. -/
theorem trimStart_closing (cs : List Char) : trimStart (cs ++ closing) = trimStart cs ++ closing :=
  (run_of_closing (by decide) cs).2

theorem readCount_suffix (cs : List Char) : (readCount cs).2 <:+ cs :=
  (trimStart_suffix _).trans ((List.dropWhile_suffix _).trans (trimStart_suffix cs))

/-- The closing is no digit, so a count ends where it did. -/
theorem readCount_closing (cs : List Char) :
    readCount (cs ++ closing) = ((readCount cs).1, (readCount cs).2 ++ closing) := by
  obtain ⟨htake, hdrop⟩ := run_of_closing (p := Char.isDigit) (by decide) (trimStart cs)
  simp only [readCount, trimStart_closing, htake, hdrop]

/-- Reads the end of a counted repetition that has two bounds. -/
def closeBounds (n m : Nat) : List Char → Except SyntaxError ((Nat × Option Nat) × List Char)
  | '\x7d' :: cs => if n ≤ m then .ok ((n, some m), cs) else .error .countOutOfOrder
  | _ => .error .badCount

/-- Reads what follows the comma of a counted repetition. -/
def readMost (n : Nat) (cs : List Char) : Except SyntaxError ((Nat × Option Nat) × List Char) :=
  match cs with
  | '\x7d' :: cs => .ok ((n, none), cs)
  | cs => (readCount cs).1 >>= fun m => closeBounds n m (readCount cs).2

/-- Bounds are one count, or a count and what comes behind a comma. -/
theorem readBounds_eq (cs : List Char) : readBounds cs =
    match (readCount cs).2 with
    | '\x7d' :: ds => (readCount cs).1 >>= fun n => .ok ((n, some n), ds)
    | ',' :: ds => (readCount cs).1 >>= fun n => readMost n (trimStart ds)
    | _ => .error .badCount := by
  unfold readBounds
  dsimp only
  rcases (readCount cs).2 with _ | ⟨c, ds⟩
  · rfl
  · by_cases hbrace : c = '\x7d'
    · subst hbrace
      rfl
    · by_cases hcomma : c = ','
      · subst hcomma
        rfl
      · simp [hbrace, hcomma]

theorem leaves_closeBounds (n m : Nat) (cs : List Char) : Leaves cs (closeBounds n m cs) := by
  unfold closeBounds
  split
  · split
    · exact Leaves.ok (List.suffix_cons _ _)
    · exact Leaves.error
  · exact Leaves.error

/-- Bounds that are closed do not see the closing, and open ones are not closed by it. -/
theorem tracks_closeBounds (n m : Nat) (cs : List Char) :
    Tracks (closeBounds n m (cs ++ closing)) (closeBounds n m cs) := by
  unfold closeBounds
  split
  · next ds h =>
    cases cs with
    | nil => simp [closing] at h
    | cons c cs =>
      obtain ⟨rfl, rfl⟩ := List.cons.inj h
      split
      · exact Tracks.ok
      · exact Tracks.error
  · exact Tracks.error

theorem leaves_readMost (n : Nat) (cs : List Char) : Leaves cs (readMost n cs) := by
  unfold readMost
  split
  · exact Leaves.ok (List.suffix_cons _ _)
  · cases (readCount cs).1 with
    | error e => exact Leaves.error
    | ok m => exact (leaves_closeBounds n m _).mono (readCount_suffix cs)

/-- The upper bound does not see the closing. -/
theorem tracks_readMost (n : Nat) (cs : List Char) :
    Tracks (readMost n (cs ++ closing)) (readMost n cs) := by
  by_cases h : cs.head? = some '\x7d'
  · obtain ⟨ds, rfl⟩ := List.head?_eq_some_iff.1 h
    exact Tracks.ok
  · have hmost : ∀ cs : List Char, cs.head? ≠ some '\x7d' →
        readMost n cs = (readCount cs).1 >>= fun m => closeBounds n m (readCount cs).2 := by
      intro cs h
      unfold readMost
      split
      · exact absurd rfl h
      · rfl
    rw [hmost cs h, hmost (cs ++ closing) (by cases cs <;> simp_all [closing]), readCount_closing]
    cases (readCount cs).1 with
    | error e => exact Tracks.error
    | ok m => exact tracks_closeBounds n m _

/-- Reading bounds takes them from the front. -/
theorem leaves_readBounds (cs : List Char) : Leaves cs (readBounds cs) := by
  have hrest := readCount_suffix cs
  rw [readBounds_eq]
  split
  · next ds h =>
    cases (readCount cs).1 with
    | error e => exact Leaves.error
    | ok n => exact Leaves.ok ((List.suffix_cons _ ds).trans (h ▸ hrest))
  · next ds h =>
    cases (readCount cs).1 with
    | error e => exact Leaves.error
    | ok n =>
      exact (leaves_readMost n _).mono
        ((trimStart_suffix ds).trans ((List.suffix_cons _ ds).trans (h ▸ hrest)))
  · exact Leaves.error

/-- Bounds do not see the closing. -/
theorem tracks_readBounds (cs : List Char) :
    Tracks (readBounds (cs ++ closing)) (readBounds cs) := by
  rw [readBounds_eq, readBounds_eq, readCount_closing]
  cases (readCount cs).2 with
  | nil => exact Tracks.error
  | cons c ds =>
    simp only [List.cons_append]
    split
    · next h =>
      obtain ⟨rfl, rfl⟩ := List.cons.inj h
      cases (readCount cs).1 with
      | error e => exact Tracks.error
      | ok n => exact Tracks.ok
    · next h =>
      obtain ⟨rfl, rfl⟩ := List.cons.inj h
      cases (readCount cs).1 with
      | error e => exact Tracks.error
      | ok n =>
        rw [trimStart_closing]
        exact tracks_readMost n _
    · exact Tracks.error

theorem dropLazy_suffix (flags : Flags) (cs : List Char) : dropLazy flags cs <:+ cs := by
  unfold dropLazy
  split
  · next ds h => exact (List.suffix_cons '?' ds).trans (h ▸ flags.skip_suffix cs)
  · exact flags.skip_suffix cs

/-- What makes a repetition lazy is no closing, unless blanks and comments swallow that. -/
theorem dropLazy_closing (flags : Flags) (cs : List Char) :
    dropLazy flags (cs ++ closing) = dropLazy flags cs ++ closing ∨
      dropLazy flags (cs ++ closing) = [] := by
  unfold dropLazy
  rcases flags.skip_closing cs with h | ⟨h, -⟩
  · left
    rw [h]
    cases flags.skip cs with
    | nil => rfl
    | cons c ds =>
      by_cases hc : c = '?'
      · subst hc
        rfl
      · simp [hc]
  · right
    rw [h]

theorem Tracks.dropLazy {α : Type} (flags : Flags) (x : α) (cs : List Char) :
    Tracks (.ok (x, dropLazy flags (cs ++ closing))) (.ok (x, dropLazy flags cs)) := by
  rcases dropLazy_closing flags cs with h | h <;> rw [h]
  · exact Tracks.ok
  · exact Tracks.of_leaves (Leaves.ok List.nil_suffix)

/-- A repetition sign that is one character has these bounds, and `none` stands for the sign that
goes on with its bounds. -/
def sign? : Char → Option (Option (Nat × Option Nat))
  | '*' => some (some (0, none))
  | '+' => some (some (1, none))
  | '?' => some (some (0, some 1))
  | '\x7b' => some none
  | _ => none

/-- A repetition is a sign, or bounds behind a brace. -/
theorem readRepetition?_cons (flags : Flags) (c : Char) (cs : List Char) :
    readRepetition? flags (c :: cs) = (sign? c).map fun
      | some bounds => .ok (bounds, FormRules.Pattern.dropLazy flags cs)
      | none => (readBounds cs).map fun p => (p.1, FormRules.Pattern.dropLazy flags p.2) := by
  unfold readRepetition?
  split
  case h_5 h₁ h₂ h₃ h₄ =>
    have hsign : sign? c = none := by
      unfold sign?
      split
      · exact absurd rfl (h₁ cs)
      · exact absurd rfl (h₂ cs)
      · exact absurd rfl (h₃ cs)
      · exact absurd rfl (h₄ cs)
      · rfl
    rw [hsign]
    rfl
  all_goals
    next heq =>
      obtain ⟨rfl, rfl⟩ := List.cons.inj heq
      rfl

/-- Reading a repetition takes it from the front. -/
theorem leaves_readRepetition? {flags : Flags} {c : Char} {cs : List Char}
    {R : Except SyntaxError ((Nat × Option Nat) × List Char)}
    (h : readRepetition? flags (c :: cs) = some R) : Leaves cs R := by
  rw [readRepetition?_cons] at h
  obtain ⟨sign, -, rfl⟩ := Option.map_eq_some_iff.1 h
  cases sign with
  | some bounds => exact Leaves.ok (dropLazy_suffix flags cs)
  | none => exact (leaves_readBounds cs).map fun bounds rest => dropLazy_suffix flags rest

/-- Whether a repetition follows, and which one, does not depend on the closing. -/
theorem readRepetition?_closing (flags : Flags) (c : Char) (cs : List Char) :
    readRepetition? flags (c :: cs) = none ∧ readRepetition? flags (c :: (cs ++ closing)) = none ∨
    ∃ R R', readRepetition? flags (c :: cs) = some R ∧
      readRepetition? flags (c :: (cs ++ closing)) = some R' ∧ Tracks R' R := by
  rw [readRepetition?_cons, readRepetition?_cons]
  cases sign? c with
  | none => exact Or.inl ⟨rfl, rfl⟩
  | some sign =>
    refine Or.inr ⟨_, _, rfl, rfl, ?_⟩
    cases sign with
    | some bounds => exact Tracks.dropLazy flags bounds cs
    | none =>
      exact (tracks_readBounds cs).map (fun bounds rest => dropLazy_suffix flags rest)
        fun bounds rest => Tracks.dropLazy flags bounds rest

/-! ## Groups -/

/-- Flags are read up to the closing, or as in the text alone. -/
theorem readFlags_closing {flags inner : Flags} {seen cs rest : List Char}
    (h : readFlags flags seen (cs ++ closing) = .ok (inner, rest)) :
    rest = closing ∨
      ∃ c ds, rest = c :: (ds ++ closing) ∧ readFlags flags seen cs = .ok (inner, c :: ds) := by
  induction cs generalizing flags seen with
  | nil =>
    rw [List.nil_append, closing, readFlags, if_pos (Or.inr rfl)] at h
    split at h
    · cases h
    · exact Or.inl (Prod.mk.inj (Except.ok.inj h)).2.symm
  | cons c cs ih =>
    rw [List.cons_append, readFlags] at h
    rw [readFlags]
    split at h
    · next hend =>
      rw [if_pos hend]
      split at h
      · cases h
      · next hseen =>
        obtain ⟨rfl, rfl⟩ := Prod.mk.inj (Except.ok.inj h)
        rw [if_neg hseen]
        exact Or.inr ⟨c, cs, rfl, rfl⟩
    · next hend =>
      rw [if_neg hend]
      split at h
      · cases h
      · next hseen =>
        rw [if_neg hseen]
        split at h
        · next hminus =>
          rw [if_pos hminus]
          exact ih h
        · next hminus =>
          rw [if_neg hminus]
          split at h
          · exact ih h
          · cases h

/-- Reading flags takes them from the front. -/
theorem readFlags_suffix {flags inner : Flags} {seen cs rest : List Char}
    (h : readFlags flags seen cs = .ok (inner, rest)) : rest <:+ cs := by
  induction cs generalizing flags seen with
  | nil => cases h
  | cons c cs ih =>
    rw [readFlags] at h
    split at h
    · split at h
      · cases h
      · obtain ⟨-, rfl⟩ := Prod.mk.inj (Except.ok.inj h)
        exact List.suffix_rfl
    · refine List.IsSuffix.trans ?_ (List.suffix_cons c cs)
      split at h
      · cases h
      · split at h
        · exact ih h
        · split at h
          · exact ih h
          · cases h

/-- Whether these characters may be the name of a group. -/
def isName : List Char → Bool
  | [] => false
  | c :: cs =>
    (c = '_' || CharSet.word.has c && !CharSet.digit.has c) &&
      cs.all fun c => CharSet.word.has c || ['.', '[', ']'].contains c

/-- A name goes up to its angle bracket. -/
theorem skipName_eq (cs : List Char) : skipName cs =
    match cs.dropWhile (· != '>') with
    | '>' :: rest => if isName (cs.takeWhile (· != '>')) then .ok rest else .error .badName
    | _ => .error .badName := by
  unfold skipName
  dsimp only
  split
  · next hname hrest =>
    rw [hname, hrest]
    rfl
  · next h =>
    split
    · next hrest =>
      have hname : isName (cs.takeWhile (· != '>')) = false := by
        cases hname : cs.takeWhile (· != '>') with
        | nil => rfl
        | cons c name => exact (h c name _ hname hrest).elim
      simp [hname]
    · rfl

theorem leaves_skipName (flags : Flags) (cs : List Char) :
    Leaves cs ((skipName cs).map fun rest => (Opening.group flags, rest)) := by
  rw [skipName_eq]
  split
  · next ds hdrop =>
    split
    · exact Leaves.ok ((List.suffix_cons '>' ds).trans (hdrop ▸ List.dropWhile_suffix _))
    · exact Leaves.error
  · exact Leaves.error

/-- A name does not see the closing, for that ends no name. -/
theorem tracks_skipName (flags : Flags) (cs : List Char) :
    Tracks ((skipName (cs ++ closing)).map fun rest => (Opening.group flags, rest))
      ((skipName cs).map fun rest => (Opening.group flags, rest)) := by
  rw [skipName_eq, skipName_eq]
  rcases run_closing (· != '>') cs with ⟨htake, hdrop, hne⟩ | ⟨-, hdrop, -⟩
  · rw [htake, hdrop]
    obtain ⟨d, ds, hds⟩ := List.exists_cons_of_ne_nil hne
    rw [hds, List.cons_append]
    split
    · next heq =>
      obtain ⟨rfl, rfl⟩ := List.cons.inj heq
      split
      · exact Tracks.ok
      · exact Tracks.error
    · exact Tracks.error
  · rw [hdrop]
    exact Tracks.error

/-- Reads the sign behind flags, which says what they are for. -/
def openFlagged (inner : Flags) : List Char → Except SyntaxError (Opening × List Char)
  | ':' :: cs => .ok (.group inner, cs)
  | _ :: cs => .ok (.flags inner, cs)
  | [] => .error .groupNotClosed

/-- What stands behind flags decides whether they open a group. -/
theorem openFlagged_cons (inner : Flags) (c : Char) :
    ∃ opening, ∀ cs, openFlagged inner (c :: cs) = .ok (opening, cs) := by
  by_cases hc : c = ':'
  · subst hc
    exact ⟨.group inner, fun cs => rfl⟩
  · refine ⟨.flags inner, fun cs => ?_⟩
    simp [openFlagged]

/-- Reads flags behind a question mark. -/
def readFlagged (flags : Flags) (cs : List Char) : Except SyntaxError (Opening × List Char) :=
  readFlags flags [] cs >>= fun p => openFlagged p.1 p.2

theorem leaves_readFlagged (flags : Flags) (cs : List Char) : Leaves cs (readFlagged flags cs) := by
  refine Leaves.bind (fun inner rest h => readFlags_suffix h) fun inner rest => ?_
  cases rest with
  | nil => exact Leaves.error
  | cons c rest =>
    obtain ⟨opening, hopening⟩ := openFlagged_cons inner c
    simp only [hopening]
    exact Leaves.ok (List.suffix_cons c rest)

/-- Flags do not see the closing, or are ended by it. -/
theorem tracks_readFlagged (flags : Flags) (cs : List Char) :
    Tracks (readFlagged flags (cs ++ closing)) (readFlagged flags cs) := by
  unfold readFlagged
  cases h : readFlags flags [] (cs ++ closing) with
  | error e => exact Tracks.error
  | ok p =>
    obtain ⟨inner, rest⟩ := p
    rcases readFlags_closing h with rfl | ⟨c, ds, rfl, h'⟩
    · exact Tracks.of_leaves (Leaves.ok List.suffix_rfl)
    · rw [h']
      obtain ⟨opening, hopening⟩ := openFlagged_cons inner c
      have hok : Tracks (openFlagged inner (c :: (ds ++ closing)))
          (openFlagged inner (c :: ds)) := by
        rw [hopening, hopening]
        exact Tracks.ok
      exact hok

/-- Reads a group whose name begins with `<`, which may be one that looks behind. -/
def readNamed (flags : Flags) (cs : List Char) : Except SyntaxError (Opening × List Char) :=
  if cs.head? = some '=' ∨ cs.head? = some '!' then .error .lookAround
  else (skipName cs).map fun cs => (.group flags, cs)

/-- Reads what makes a group special, behind the question mark. -/
def readSpecial (flags : Flags) (cs : List Char) : Except SyntaxError (Opening × List Char) :=
  match cs with
  | [] => readFlagged flags []
  | c :: ds =>
    if c = '=' ∨ c = '!' then .error .lookAround
    else if c = '<' then readNamed flags ds
    else if c = 'P' ∧ ds.head? = some '<' then
      (skipName ds.tail).map fun cs => (.group flags, cs)
    else readFlagged flags (c :: ds)

/-- A group is special if a question mark stands behind its parenthesis. -/
theorem readOpening_eq (flags : Flags) (cs : List Char) : readOpening flags cs =
    match flags.skip cs with
    | '?' :: cs => readSpecial flags cs
    | cs => .ok (.group flags, cs) := by
  unfold readOpening
  split
  case h_7 ds hequal hbang hbehind hbehind' hname hname' h =>
    rw [h]
    cases ds with
    | nil => rfl
    | cons c ds =>
      have hc : ¬(c = '=' ∨ c = '!') := by
        rintro (rfl | rfl)
        · exact hequal _ rfl
        · exact hbang _ rfl
      have hc' : c ≠ '<' := by
        rintro rfl
        exact hname' _ rfl
      have hP : ¬(c = 'P' ∧ ds.head? = some '<') := by
        rintro ⟨rfl, hds⟩
        obtain ⟨es, rfl⟩ := List.head?_eq_some_iff.1 hds
        exact hname _ rfl
      simp only [readSpecial, if_neg hc, if_neg hc', if_neg hP, readFlagged]
      congr 1
      funext p
      obtain ⟨inner, _ | ⟨d, rest⟩⟩ := p
      · rfl
      · by_cases hd : d = ':'
        · subst hd
          rfl
        · simp [openFlagged]
          rfl
  case h_6 ds hbehind hbehind' h =>
    have hds : ¬(ds.head? = some '=' ∨ ds.head? = some '!') := by
      rintro (hds | hds)
      · obtain ⟨es, rfl⟩ := List.head?_eq_some_iff.1 hds
        exact hbehind es rfl
      · obtain ⟨es, rfl⟩ := List.head?_eq_some_iff.1 hds
        exact hbehind' es rfl
    rw [h]
    simp [readSpecial, readNamed, hds]
  case h_8 h =>
    split
    · next ds hskip => exact (h ds hskip).elim
    · rfl
  all_goals
    next h =>
    rw [h]
    simp [readSpecial, readNamed]

theorem leaves_readSpecial (flags : Flags) (cs : List Char) : Leaves cs (readSpecial flags cs) := by
  unfold readSpecial readNamed
  split
  · exact leaves_readFlagged flags []
  · next c ds =>
    split
    · exact Leaves.error
    · split
      · split
        · exact Leaves.error
        · exact (leaves_skipName flags ds).mono (List.suffix_cons c ds)
      · split
        · exact (leaves_skipName flags _).mono ((List.tail_suffix ds).trans (List.suffix_cons c ds))
        · exact leaves_readFlagged flags _

/-- What makes a group special does not see the closing, or is ended by it. -/
theorem tracks_readSpecial (flags : Flags) (cs : List Char) :
    Tracks (readSpecial flags (cs ++ closing)) (readSpecial flags cs) := by
  unfold readSpecial readNamed
  cases cs with
  | nil => exact tracks_readFlagged flags []
  | cons c ds =>
    have hhead : ∀ d, d ≠ ')' → ((ds ++ closing).head? = some d ↔ ds.head? = some d) := by
      intro d hd
      cases ds with
      | nil => simpa [closing] using hd.symm
      | cons e ds => rfl
    simp only [List.cons_append, hhead '=' (by decide), hhead '!' (by decide),
      hhead '<' (by decide)]
    split
    · exact Tracks.error
    · split
      · split
        · exact Tracks.error
        · exact tracks_skipName flags ds
      · split
        · next hP =>
          obtain ⟨es, rfl⟩ := List.head?_eq_some_iff.1 hP.2
          exact tracks_skipName flags es
        · exact tracks_readFlagged flags (c :: ds)

/-- Reading how a group opens takes that from the front. -/
theorem leaves_readOpening (flags : Flags) (cs : List Char) : Leaves cs (readOpening flags cs) := by
  rw [readOpening_eq]
  split
  · next ds hskip =>
    exact (leaves_readSpecial flags ds).mono
      ((List.suffix_cons '?' ds).trans (hskip ▸ flags.skip_suffix cs))
  · exact Leaves.ok (flags.skip_suffix cs)

/-- How a group opens does not depend on the closing, unless that ends its flags. -/
theorem tracks_readOpening (flags : Flags) (cs : List Char) :
    Tracks (readOpening flags (cs ++ closing)) (readOpening flags cs) := by
  rw [readOpening_eq, readOpening_eq]
  rcases flags.skip_closing cs with h | ⟨h, -⟩
  · rw [h]
    cases flags.skip cs with
    | nil => exact Tracks.nil
    | cons c ds =>
      by_cases hc : c = '?'
      · subst hc
        exact tracks_readSpecial flags ds
      · simpa [hc] using Tracks.cons
  · rw [h]
    exact Tracks.of_leaves (Leaves.ok List.nil_suffix)

end FormRules.Pattern
