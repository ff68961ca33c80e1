import FormRules.Evaluation.Table
import FormRules.Proofs.Matching
import FormRules.Proofs.Classes
import FormRules.Proofs.Groups

/-!
# Patterns for whole texts

A pattern that is to match whole texts is put between `^(?:` and `)$` before it is read. What is
read then is a matter of the regular expressions that are used: `Regex.Follows` is what their
documentation says of anchors, groups and sequences, for any `Regex` and the expressions that it
reads. From this alone, a pattern that is valid by itself is for the conditions that it matches from
end to end, and the promise that an entry is for no others is kept by just those patterns and those
that are found nowhere (`Evaluation.covers_of_compile`).

The library's own `Pattern.regex` follows the documentation (`Pattern.regex_follows`). Alternatives
are read in rounds (`choiceRound`), which track those of the text alone (`tracks_readChoice`), so that
the group in the middle is the pattern (`parse_of_parse_whole`). The only other patterns that are
accepted close the group around them. They are not valid by themselves, and their entries are for
conditions that they do not match from end to end (`Evaluation.covers_of_closing_group`).
-/

namespace FormRules.Pattern

open Text

/-! ## Patterns -/

/-- A single expression is taken from the front. -/
theorem leaves_readPrimitive (flags : Flags) (c : Char) (cs : List Char) :
    Leaves cs (readPrimitive flags c cs) := by
  unfold readPrimitive
  split
  case h_4 => exact (leaves_readEscape cs).map fun e rest => List.suffix_rfl
  all_goals exact Leaves.ok List.suffix_rfl

/-- A single expression does not see the closing, unless it escapes that. -/
theorem tracks_readPrimitive (flags : Flags) (c : Char) (cs : List Char) :
    Tracks (readPrimitive flags c (cs ++ closing)) (readPrimitive flags c cs) := by
  unfold readPrimitive
  split
  case h_4 =>
    exact (tracks_readEscape cs).map (fun e rest => List.suffix_rfl) fun e rest => Tracks.ok
  all_goals exact Tracks.ok

/-- Reads what follows a group up to its closing parenthesis, and goes on behind that. -/
def closeGroup (next : Pattern → List Char → Except SyntaxError (Pattern × List Char))
    (p : Pattern) : List Char → Except SyntaxError (Pattern × List Char)
  | ')' :: cs => next p cs
  | _ => .error .groupNotClosed

/-- Goes on behind what opens a group: with the flags that it sets, or with the group and what comes
behind it. -/
def openGroup
    (next : Flags → List Pattern → List (Option Pattern) → List Char →
      Except SyntaxError (Pattern × List Char))
    (flags : Flags) (alternatives : List Pattern) (items : List (Option Pattern)) :
    Opening → List Char → Except SyntaxError (Pattern × List Char)
  | .flags inner, cs => next inner alternatives (none :: items) cs
  | .group inner, cs => next inner [] [] cs >>= fun p =>
    closeGroup (fun p => next flags alternatives (some p :: items)) p.1 p.2

/-- One round of reading alternatives, where `next` goes on with them and reads groups. -/
def choiceRound (fuel : Nat)
    (next : Flags → List Pattern → List (Option Pattern) → List Char →
      Except SyntaxError (Pattern × List Char))
    (flags : Flags) (alternatives : List Pattern) (items : List (Option Pattern)) (cs : List Char) :
    Except SyntaxError (Pattern × List Char) :=
  match flags.skip cs with
  | [] => .ok (choice (sequence items) alternatives, [])
  | c :: ds =>
    match readRepetition? flags (c :: ds) with
    | some repetition =>
      match items with
      | some p :: items => repetition >>= fun r =>
        next flags alternatives (some (.loop p r.1.1 r.1.2) :: items) r.2
      | _ => .error .repetitionOfNothing
    | none =>
      if c = ')' then .ok (choice (sequence items) alternatives, c :: ds)
      else if c = '|' then next flags (sequence items :: alternatives) [] ds
      else if c = '(' then
        readOpening flags ds >>= fun o => openGroup next flags alternatives items o.1 o.2
      else if c = '[' then
        readClass flags fuel (openClass flags ds).1 (openClass flags ds).2 >>= fun s =>
          next flags alternatives (some (.set s.1) :: items) s.2
      else readPrimitive flags c ds >>= fun p => next flags alternatives (some p.1 :: items) p.2

/-- Alternatives are read in rounds. -/
theorem readChoice_succ (fuel : Nat) (flags : Flags) (alternatives : List Pattern)
    (items : List (Option Pattern)) (cs : List Char) :
    readChoice (fuel + 1) flags alternatives items cs =
      choiceRound fuel (readChoice fuel) flags alternatives items cs := by
  rw [readChoice, choiceRound]
  cases flags.skip cs with
  | nil => rfl
  | cons c ds =>
    dsimp only
    cases readRepetition? flags (c :: ds) with
    | some repetition =>
      rcases items with _ | ⟨_ | p, items⟩
      · rfl
      · rfl
      · rfl
    | none =>
      dsimp only
      split
      case h_1 heq => cases heq
      case h_6 hclose halt hgroup hset heq =>
        obtain ⟨rfl, rfl⟩ := List.cons.inj heq
        rw [if_neg hclose, if_neg halt, if_neg hgroup, if_neg hset]
      case h_4 heq =>
        obtain ⟨rfl, rfl⟩ := List.cons.inj heq
        cases readOpening flags ds with
        | error e => rfl
        | ok o =>
          obtain ⟨inner | inner, rest⟩ := o
          · rfl
          · change (readChoice fuel inner [] [] rest >>= _) =
              (readChoice fuel inner [] [] rest >>= _)
            congr 1
            funext p
            obtain ⟨p, _ | ⟨d, rest⟩⟩ := p
            · rfl
            · by_cases hd : d = ')'
              · subst hd
                rfl
              · simp [closeGroup, hd]
      all_goals
        next heq =>
          obtain ⟨rfl, rfl⟩ := List.cons.inj heq
          rfl

section Round

variable {fuel fuel' : Nat}
  {next next' : Flags → List Pattern → List (Option Pattern) → List Char →
    Except SyntaxError (Pattern × List Char)}
  {flags : Flags} {alternatives : List Pattern} {items : List (Option Pattern)} {cs : List Char}

/-- A group that is closed is taken from the front. -/
theorem leaves_closeGroup {next : Pattern → List Char → Except SyntaxError (Pattern × List Char)}
    (hnext : ∀ p ds, Leaves ds (next p ds)) (p : Pattern) (cs : List Char) :
    Leaves cs (closeGroup next p cs) := by
  unfold closeGroup
  split
  · exact (hnext _ _).mono (List.suffix_cons _ _)
  · exact Leaves.error

/-- A group that is closed does not see the closing behind it. -/
theorem tracks_closeGroup
    {next next' : Pattern → List Char → Except SyntaxError (Pattern × List Char)}
    (hleaves : ∀ p ds, Leaves ds (next p ds))
    (hnext : ∀ p ds, Tracks (next p (ds ++ closing)) (next' p ds)) (p : Pattern) (cs : List Char) :
    Tracks (closeGroup next p (cs ++ closing)) (closeGroup next' p cs) := by
  cases cs with
  | nil => exact Tracks.of_leaves (hleaves p ['$'])
  | cons c cs =>
    unfold closeGroup
    split
    · next heq =>
      obtain ⟨rfl, rfl⟩ := List.cons.inj heq
      exact hnext p cs
    · exact Tracks.error

/-- What follows a group is shorter than the text, so it may be read with another fuel. -/
theorem closeGroup_congr
    {next next' : Pattern → List Char → Except SyntaxError (Pattern × List Char)} (p : Pattern)
    (h : ∀ p ds, ds.length < cs.length → next p ds = next' p ds) :
    closeGroup next p cs = closeGroup next' p cs := by
  cases cs with
  | nil => rfl
  | cons c cs =>
    unfold closeGroup
    split
    · next heq =>
      obtain ⟨-, rfl⟩ := List.cons.inj heq
      exact h _ _ (Nat.lt_succ_self _)
    · rfl

/-- A group is taken from the front. -/
theorem leaves_openGroup
    (hnext : ∀ flags alternatives items ds, Leaves ds (next flags alternatives items ds))
    (o : Opening) (cs : List Char) : Leaves cs (openGroup next flags alternatives items o cs) := by
  cases o with
  | flags inner => exact hnext _ _ _ cs
  | group inner =>
    refine Leaves.bind (hnext _ _ _ cs) fun p rest => ?_
    exact leaves_closeGroup (fun p rest => hnext _ _ _ rest) p rest

/-- A group does not see the closing unless it is open at the end. -/
theorem tracks_openGroup
    (hleaves : ∀ flags alternatives items ds, Leaves ds (next flags alternatives items ds))
    (hnext : ∀ flags alternatives items ds,
      Tracks (next flags alternatives items (ds ++ closing)) (next' flags alternatives items ds))
    (o : Opening) (cs : List Char) :
    Tracks (openGroup next flags alternatives items o (cs ++ closing))
      (openGroup next' flags alternatives items o cs) := by
  cases o with
  | flags inner => exact hnext _ _ _ cs
  | group inner =>
    refine Tracks.bind (hnext _ _ _ cs) (fun p rest => ?_) fun p rest => ?_
    · exact leaves_closeGroup (fun p rest => hleaves _ _ _ rest) p rest
    · exact tracks_closeGroup (fun p rest => hleaves _ _ _ rest) (fun p rest => hnext _ _ _ rest)
        p rest

/-- A group and what follows it may be read with another fuel. -/
theorem openGroup_congr
    (hleaves : ∀ flags alternatives items ds, Leaves ds (next flags alternatives items ds))
    (h : ∀ flags alternatives items ds, ds.length ≤ cs.length →
      next flags alternatives items ds = next' flags alternatives items ds) (o : Opening) :
    openGroup next flags alternatives items o cs =
      openGroup next' flags alternatives items o cs := by
  cases o with
  | flags inner => exact h _ _ _ cs le_rfl
  | group inner =>
    simp only [openGroup]
    rw [← h _ _ _ cs le_rfl]
    refine (hleaves _ _ _ cs).bind_congr fun p rest hrest => ?_
    exact closeGroup_congr p fun p ds hds => h _ _ _ ds (hds.le.trans hrest)

theorem leaves_choiceRound
    (hnext : ∀ flags alternatives items ds, Leaves ds (next flags alternatives items ds)) :
    Leaves cs (choiceRound fuel next flags alternatives items cs) := by
  refine Leaves.mono ?_ (flags.skip_suffix cs)
  unfold choiceRound
  split
  · exact Leaves.ok List.nil_suffix
  · next c ds hskip =>
    rw [hskip]
    have hds := List.suffix_cons c ds
    split
    · next R hR =>
      split
      · exact Leaves.bind ((leaves_readRepetition? hR).mono hds) fun bounds rest => hnext _ _ _ rest
      · exact Leaves.error
    · split
      · exact Leaves.ok List.suffix_rfl
      · split
        · exact (hnext _ _ _ ds).mono hds
        · split
          · exact Leaves.bind ((leaves_readOpening flags ds).mono hds) (leaves_openGroup hnext)
          · split
            · refine Leaves.bind ?_ fun s rest => hnext _ _ _ rest
              have hclass :=
                leaves_readClass flags fuel (openClass flags ds).1 (openClass flags ds).2
              exact hclass.mono ((List.tail_suffix _).trans ((flags.skip_suffix _).trans
                ((openClass_suffix flags ds).trans hds)))
            · exact Leaves.bind ((leaves_readPrimitive flags c ds).mono hds)
                fun p rest => hnext _ _ _ rest

/-- A round does not see the closing if what follows it does not. -/
theorem tracks_choiceRound
    (hleaves : ∀ flags alternatives items ds, Leaves ds (next flags alternatives items ds))
    (hnext : ∀ flags alternatives items ds,
      Tracks (next flags alternatives items (ds ++ closing)) (next' flags alternatives items ds)) :
    Tracks (choiceRound fuel next flags alternatives items (cs ++ closing))
      (choiceRound fuel next' flags alternatives items cs) := by
  rcases flags.skip_closing cs with h | ⟨h, h'⟩
  · cases hskip : flags.skip cs with
    | nil =>
      unfold choiceRound
      rw [h, hskip]
      exact Tracks.nil
    | cons c ds =>
      unfold choiceRound
      rw [h, hskip]
      dsimp only [List.cons_append]
      rcases readRepetition?_closing flags c ds with ⟨hR, hR'⟩ | ⟨R, R', hR, hR', htracks⟩
      · rw [hR, hR']
        dsimp only
        split
        · exact Tracks.cons
        · split
          · exact hnext _ _ _ ds
          · split
            · exact Tracks.bind (tracks_readOpening flags ds) (leaves_openGroup hleaves)
                (tracks_openGroup hleaves hnext)
            · split
              · rcases openClass_closing flags ds with hopen | hopen
                · rw [hopen]
                  exact Tracks.bind (tracks_readClass flags fuel _ _)
                    (fun s rest => hleaves _ _ _ rest) fun s rest => hnext _ _ _ rest
                · rw [hopen, readClass_nil]
                  exact Tracks.error
              · exact Tracks.bind (tracks_readPrimitive flags c ds)
                  (fun p rest => hleaves _ _ _ rest) fun p rest => hnext _ _ _ rest
      · rw [hR, hR']
        dsimp only
        split
        · exact Tracks.bind htracks (fun bounds rest => hleaves _ _ _ rest)
            fun bounds rest => hnext _ _ _ rest
        · exact Tracks.error
  · unfold choiceRound
    rw [h]
    exact Tracks.of_leaves (Leaves.ok List.nil_suffix)

/-- Rounds go on with texts that are shorter. -/
theorem choiceRound_congr
    (hleaves : ∀ flags alternatives items ds, Leaves ds (next flags alternatives items ds))
    (hfuel : cs.length ≤ fuel) (hfuel' : cs.length ≤ fuel')
    (h : ∀ flags alternatives items ds, ds.length < cs.length →
      next flags alternatives items ds = next' flags alternatives items ds) :
    choiceRound fuel next flags alternatives items cs =
      choiceRound fuel' next' flags alternatives items cs := by
  have hlength := (flags.skip_suffix cs).length_le
  unfold choiceRound
  cases hskip : flags.skip cs with
  | nil => rfl
  | cons c ds =>
    have hds : ds.length < cs.length := by
      rw [hskip, List.length_cons] at hlength
      omega
    dsimp only
    cases hR : readRepetition? flags (c :: ds) with
    | some R =>
      dsimp only
      split
      · exact (leaves_readRepetition? hR).bind_congr fun bounds rest hrest =>
          h _ _ _ rest (by omega)
      · rfl
    | none =>
      dsimp only
      split
      · rfl
      · split
        · exact h _ _ _ ds hds
        · split
          · refine (leaves_readOpening flags ds).bind_congr fun opening rest hrest => ?_
            exact openGroup_congr hleaves
              (fun _ _ _ _ hle => h _ _ _ _ ((hle.trans hrest).trans_lt hds)) opening
          · split
            · have hopen := (openClass_suffix flags ds).length_le
              have hclass : readClass flags fuel (openClass flags ds).1 (openClass flags ds).2 =
                  readClass flags fuel' (openClass flags ds).1 (openClass flags ds).2 :=
                readClass_fuel flags _ (by omega) (by omega)
              rw [hclass]
              refine Leaves.bind_congr ((leaves_readClass flags fuel' _ _).mono
                ((List.tail_suffix _).trans (flags.skip_suffix _))) fun s rest hrest => ?_
              exact h _ _ _ rest (by omega)
            · exact (leaves_readPrimitive flags c ds).bind_congr fun p rest hrest =>
                h _ _ _ rest (by omega)

end Round

/-- Alternatives are taken from the front, by induction on their rounds. -/
theorem leaves_readChoice (fuel : Nat) (flags : Flags) (alternatives : List Pattern)
    (items : List (Option Pattern)) (cs : List Char) :
    Leaves cs (readChoice fuel flags alternatives items cs) := by
  induction fuel generalizing flags alternatives items cs with
  | zero => exact Leaves.ok List.suffix_rfl
  | succ fuel ih =>
    rw [readChoice_succ]
    exact leaves_choiceRound ih

/-- The alternatives of a group are those of its text alone, unless they go on behind the closing
parenthesis. -/
theorem tracks_readChoice (fuel : Nat) (flags : Flags) (alternatives : List Pattern)
    (items : List (Option Pattern)) (cs : List Char) :
    Tracks (readChoice fuel flags alternatives items (cs ++ closing))
      (readChoice fuel flags alternatives items cs) := by
  induction fuel generalizing flags alternatives items cs with
  | zero => exact Tracks.ok
  | succ fuel ih =>
    rw [readChoice_succ, readChoice_succ]
    exact tracks_choiceRound (leaves_readChoice fuel) ih

/-- More fuel than the text has characters is enough. -/
theorem readChoice_fuel {fuel fuel' : Nat} (flags : Flags) (alternatives : List Pattern)
    (items : List (Option Pattern)) {cs : List Char} (h : cs.length < fuel)
    (h' : cs.length < fuel') :
    readChoice fuel flags alternatives items cs = readChoice fuel' flags alternatives items cs := by
  induction fuel generalizing fuel' flags alternatives items cs with
  | zero => exact absurd h (Nat.not_lt_zero _)
  | succ fuel ih =>
    cases fuel' with
    | zero => exact absurd h' (Nat.not_lt_zero _)
    | succ fuel' =>
      rw [readChoice_succ, readChoice_succ]
      exact choiceRound_congr (leaves_readChoice fuel) (by omega) (by omega)
        fun flags alternatives items ds hds => ih flags alternatives items (by omega) (by omega)

/-! ## Patterns for whole texts -/

/-- The group between the anchors is read first. -/
theorem readChoice_opening (fuel : Nat) (cs : List Char) :
    readChoice (fuel + 2) {} [] [] ('^' :: '(' :: '?' :: ':' :: cs) =
      readChoice fuel {} [] [] cs >>= fun p =>
        closeGroup (fun p => readChoice fuel {} [] [some p, some (.anchor .textStart)])
          p.1 p.2 := by
  have hcaret : readChoice (fuel + 2) {} [] [] ('^' :: '(' :: '?' :: ':' :: cs) =
      readChoice (fuel + 1) {} [] [some (.anchor .textStart)] ('(' :: '?' :: ':' :: cs) := rfl
  rw [hcaret, readChoice_succ]
  rfl

/-- Then the last anchor. -/
theorem readChoice_closing (fuel : Nat) (p : Pattern) :
    readChoice (fuel + 2) {} [] [some p, some (.anchor .textStart)] ['$'] =
      .ok (p.anchored, []) := rfl

/-- A pattern for whole texts is read as its own text is and put between anchors, unless that text
closes a group that it has not opened. A pattern that takes the closing parenthesis for something
else leaves its group open. -/
theorem parse_of_parse_whole {source : String} {q : Pattern}
    (h : parse (Regex.whole source) = .ok q) : parse source = .error .groupNotOpened ∨
    ∃ p, parse source = .ok p ∧ q = p.anchored := by
  have htext : (Regex.whole source).toList =
      '^' :: '(' :: '?' :: ':' :: (source.toList ++ closing) := by
    simp [Regex.whole, String.toList_append, closing]
  have hfuel : ('^' :: '(' :: '?' :: ':' :: (source.toList ++ closing)).length + 1 =
      source.toList.length + 5 + 2 := by
    simp [closing]
  rw [parse, htext, hfuel, readChoice_opening] at h
  rw [parse]
  have hmore : readChoice (source.toList.length + 1) {} [] [] source.toList =
      readChoice (source.toList.length + 5) {} [] [] source.toList :=
    readChoice_fuel {} [] [] (by omega) (by omega)
  rw [hmore]
  cases hgroup : readChoice (source.toList.length + 5) {} [] [] (source.toList ++ closing) with
  | error e =>
    rw [hgroup] at h
    cases h
  | ok r =>
    obtain ⟨p, rest⟩ := r
    rw [hgroup] at h
    rcases tracks_readChoice _ _ _ _ _ p rest hgroup with hover | ⟨rest', rfl, halone⟩
    · rcases List.suffix_cons_iff.1 hover with rfl | hover
      · cases h
      · obtain rfl := List.suffix_nil.1 hover
        cases h
    · rw [halone]
      cases rest' with
      | cons c ds => exact Or.inl rfl
      | nil =>
        right
        change (readChoice (source.toList.length + 3 + 2) {} [] [some p, some (.anchor .textStart)]
          ['$'] >>= _) = _ at h
        rw [readChoice_closing] at h
        change (if p.anchored.size ≤ sizeLimit then Except.ok p.anchored
          else .error SyntaxError.tooLarge) = _ at h
        split at h
        · next hsize =>
          have hle : p.size ≤ sizeLimit := by
            simp only [anchored, size] at hsize
            omega
          exact ⟨p, if_pos hle, (Except.ok.inj h).symm⟩
        · cases h

end FormRules.Pattern

namespace FormRules

/-! ## Documented regular expressions -/

/-- Regular expressions as a documentation has them: what a text is read as, if it is a valid one,
and which stretches of a text an expression matches, from a position to a position. Some of the
expressions are named: the anchors for the ends of the text, a group that captures nothing, and one
expression after another. -/
structure Regex.Language where
  Expr : Type
  read? : String → Option Expr
  Matches : Expr → List Char → Nat → Nat → Prop
  textStart : Expr
  textEnd : Expr
  group : Expr → Expr
  seq : Expr → Expr → Expr

/-- The expression matches the whole text. -/
def Regex.Language.Spans (L : Regex.Language) (e : L.Expr) (text : String) : Prop :=
  L.Matches e text.toList 0 text.toList.length

/-- Regular expressions are as the documentation says. -/
structure Regex.Follows (regex : Regex) (L : Regex.Language) : Prop where
  /-- Those texts are accepted that are valid regular expressions. -/
  valid : ∀ source, (regex source).isSome = true ↔ (L.read? source).isSome = true
  /-- One is found in a text if it matches some stretch of it. -/
  found : ∀ {source found e}, regex source = some found → L.read? source = some e →
    ∀ text, found text = true ↔ ∃ i j, L.Matches e text.toList i j
  textStart : ∀ {text i j}, L.Matches L.textStart text i j ↔ i = 0 ∧ j = 0
  textEnd : ∀ {text i j}, L.Matches L.textEnd text i j ↔ i = text.length ∧ j = text.length
  /-- A group matches what the expression in it matches. -/
  group : ∀ {e text i j}, L.Matches (L.group e) text i j ↔ L.Matches e text i j
  /-- The second expression goes on where the first has come to. -/
  seq : ∀ {e f text i k}, L.Matches (L.seq e f) text i k ↔
    ∃ j, L.Matches e text i j ∧ L.Matches f text j k
  /-- `^`, `(?:`, a valid expression, `)` and `$` are read as an anchor, a group with the expression
  in it, and an anchor. A comment that is open at the end of the expression can keep the whole from
  being valid. -/
  whole : ∀ {pattern e w}, L.read? pattern = some e → L.read? (Regex.whole pattern) = some w →
    w = L.seq L.textStart (L.seq (L.group e) L.textEnd)

/-- Between the anchors, an expression is found in the texts that it matches from end to end. -/
theorem Regex.Follows.found_whole {regex : Regex} {L : Regex.Language} (h : regex.Follows L)
    {pattern : String} {e : L.Expr} (he : L.read? pattern = some e) {found : String → Bool}
    (hfound : regex (Regex.whole pattern) = some found) (text : String) :
    found text = true ↔ L.Spans e text := by
  obtain ⟨w, hw⟩ : ∃ w, L.read? (Regex.whole pattern) = some w := by
    rw [← Option.isSome_iff_exists, ← h.valid, hfound]
    rfl
  obtain rfl := h.whole he hw
  rw [h.found hfound hw]
  simp only [h.seq, h.textStart, h.group, h.textEnd]
  constructor
  · rintro ⟨i, j, k, ⟨rfl, rfl⟩, l, hmatches, rfl, rfl⟩
    exact hmatches
  · intro hspans
    exact ⟨0, _, 0, ⟨rfl, rfl⟩, _, hspans, rfl, rfl⟩

namespace Pattern

/-- The documentation of the library's own regular expressions. -/
def language : Regex.Language where
  Expr := Pattern
  read? source := (parse source).toOption
  Matches p text i j := i ≤ text.length ∧ p.Matches text.toArray i j
  textStart := .anchor .textStart
  textEnd := .anchor .textEnd
  group p := p
  seq := .seq

/-- The library's own regular expressions are as documented. -/
theorem regex_follows : regex.Follows language where
  valid source := by simp [regex, language]
  found {source found p} hfound hp text := by
    have hregex : regex source = some p.isFoundIn := congrArg (Option.map isFoundIn) hp
    obtain rfl := Option.some.inj (hregex.symm.trans hfound)
    exact isFoundIn_iff
  textStart {text i j} := by
    constructor
    · rintro ⟨hi, h⟩
      exact (matches_textStart hi).1 h
    · rintro ⟨rfl, rfl⟩
      exact ⟨Nat.zero_le _, (matches_textStart (Nat.zero_le _)).2 ⟨rfl, rfl⟩⟩
  textEnd {text i j} := by
    constructor
    · rintro ⟨hi, h⟩
      exact (matches_textEnd hi).1 h
    · rintro ⟨rfl, rfl⟩
      exact ⟨le_rfl, (matches_textEnd le_rfl).2 ⟨rfl, rfl⟩⟩
  group := Iff.rfl
  seq {p q text i k} := by
    constructor
    · rintro ⟨hi, j, hp, hq⟩
      have hj : j ≤ text.length := by simpa using (hp.bounds (by simpa using hi)).2
      exact ⟨j, ⟨hi, hp⟩, hj, hq⟩
    · rintro ⟨j, ⟨hi, hp⟩, -, hq⟩
      exact ⟨hi, j, hp, hq⟩
  whole {pattern p w} hp hw := by
    have hread : ∀ {source : String} {q : Pattern}, language.read? source = some q →
        parse source = .ok q := fun {source q} h => by
      cases hparse : parse source with
      | error e => simp [language, hparse, Except.toOption] at h
      | ok r => simpa [language, hparse, Except.toOption] using h
    rcases parse_of_parse_whole (hread hw) with herror | ⟨q, hq, rfl⟩
    · rw [hread hp] at herror
      cases herror
    · obtain rfl := Except.ok.inj ((hread hp).symm.trans hq)
      rfl

end Pattern

namespace Evaluation

/-- Whatever regular expressions are used, if they are as documented: an entry for a pattern that is
valid by itself is for the conditions that this pattern matches from end to end. That an entry is
only for conditions that its pattern matches so is true just if the pattern is valid by itself, or
the entry is for no condition at all. -/
theorem covers_of_compile {regex : Regex} {L : Regex.Language} (hdocs : regex.Follows L)
    {pattern : String} {default : Bool} {predicate : Predicate} {label : Option String}
    {entry : Evaluation} (h : compile pattern default predicate label regex = .ok entry) :
    (∀ e, L.read? pattern = some e → ∀ t, entry.covers t = true ↔ L.Spans e t) ∧
    ((∀ t, entry.covers t = true → ∃ e, L.read? pattern = some e ∧ L.Spans e t) ↔
      (regex pattern).isSome = true ∨ ∀ t, entry.covers t = false) := by
  unfold compile at h
  split at h
  · next found hfound =>
    obtain rfl := Except.ok.inj h
    have hspans : ∀ e, L.read? pattern = some e → ∀ t, found t = true ↔ L.Spans e t :=
      fun e he t => hdocs.found_whole he hfound t
    refine ⟨hspans, fun hkept => ?_, ?_⟩
    · by_cases hnone : ∀ t, found t = false
      · exact Or.inr hnone
      · obtain ⟨t, ht⟩ := not_forall.1 hnone
        obtain ⟨e, he, -⟩ := hkept t (Bool.of_not_eq_false ht)
        exact Or.inl ((hdocs.valid pattern).2 (he ▸ rfl))
    · rintro (hvalid | hnone) t ht
      · obtain ⟨e, he⟩ := Option.isSome_iff_exists.1 ((hdocs.valid pattern).1 hvalid)
        exact ⟨e, he, (hspans e he t).1 ht⟩
      · cases (hnone t).symm.trans ht
  · cases h

/-- The pattern of two letters in alternatives is valid by itself, and its entry is for the two
letters alone. -/
theorem covers_of_compile_alternatives : ∃ entry : Evaluation,
    Pattern.regex.Follows Pattern.language ∧
    compile "a|b" true (fun _ _ _ _ => true) none = .ok entry ∧
    entry.covers "b" = true ∧ entry.covers "bx" = false ∧
    (∀ e, Pattern.language.read? "a|b" = some e → ∀ t,
      entry.covers t = true ↔ Pattern.language.Spans e t) ∧
    ((∀ t, entry.covers t = true → ∃ e, Pattern.language.read? "a|b" = some e ∧
        Pattern.language.Spans e t) ↔
      (Pattern.regex "a|b").isSome = true ∨ ∀ t, entry.covers t = false) :=
  ⟨_, Pattern.regex_follows, rfl, by decide +kernel, by decide +kernel,
    covers_of_compile Pattern.regex_follows rfl⟩

/-- A pattern that is not valid by itself can close the group around it. Its entry is then for
conditions that only start as it says. -/
theorem covers_of_closing_group : ∃ entry : Evaluation,
    Pattern.regex.Follows Pattern.language ∧
    compile "a)|(b" true (fun _ _ _ _ => true) none = .ok entry ∧ entry.covers "ax" = true ∧
    ¬∃ e, Pattern.language.read? "a)|(b" = some e ∧ Pattern.language.Spans e "ax" :=
  ⟨_, Pattern.regex_follows, rfl, by decide +kernel, by
    have hread : Pattern.language.read? "a)|(b" = none := rfl
    simp [hread]⟩

end Evaluation

end FormRules
