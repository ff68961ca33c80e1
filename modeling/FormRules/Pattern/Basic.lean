import FormRules.Text.Fold
import FormRules.Text.WordTable
import FormRules.Text.Blank

/-!
# Patterns

A pattern is a regular expression over characters with anchors. `Pattern.ends` takes a set of
positions in a text to the positions where a match that starts at one of them may end, by one
equation per form of pattern; how greedy a repetition is makes no difference to that set.
`Pattern.isFoundIn` asks for a match that starts anywhere.

A set of characters is a formula over single characters, ranges and the classes of digits, word
characters and blanks.
-/

namespace FormRules

open Text

/-! ## Sets of characters -/

/-- A set of characters. -/
inductive CharSet
  | none
  | one (c : Char)
  | range (low high : Char)
  | digit
  | word
  | blank
  | compl (s : CharSet)
  | union (s t : CharSet)
  | inter (s t : CharSet)
  /-- The set with all case counterparts of its members. -/
  | folded (s : CharSet)
deriving DecidableEq, Repr, Inhabited

namespace CharSet

/-- Whether a character is in the set. -/
def has : CharSet → Char → Bool
  | none, _ => false
  | one d, c => c == d
  | range low high, c => low ≤ c && c ≤ high
  | digit, c => inRanges digitRanges c.toNat
  | word, c => inRanges wordRanges c.toNat
  | blank, c => isBlank c
  | compl s, c => !s.has c
  | union s t, c => s.has c || t.has c
  | inter s t, c => s.has c && t.has c
  | folded s, c => (counterparts c).any fun d => s.has d

/-- The set without the members of another. -/
def diff (s t : CharSet) : CharSet := inter s (compl t)

/-- The characters in exactly one of two sets. -/
def symmDiff (s t : CharSet) : CharSet := union (diff s t) (diff t s)

end CharSet

/-! ## Anchors -/

/-- A condition on a position. -/
inductive Anchor
  | textStart
  | textEnd
  | lineStart
  | lineEnd
  | wordBoundary
  | notWordBoundary
  | wordStart
  | wordEnd
deriving DecidableEq, Repr, Inhabited

/-- Whether the condition holds between two characters, `none` standing for the end of the text. -/
def Anchor.holds (a : Anchor) (before after : Option Char) : Bool :=
  let inWord (c : Option Char) := c.any CharSet.word.has
  match a with
  | textStart => before.isNone
  | textEnd => after.isNone
  | lineStart => before.isNone || before == some '\n'
  | lineEnd => after.isNone || after == some '\n'
  | wordBoundary => inWord before != inWord after
  | notWordBoundary => inWord before == inWord after
  | wordStart => !inWord before && inWord after
  | wordEnd => inWord before && !inWord after

/-! ## Patterns -/

/-- A regular expression. -/
inductive Pattern
  | empty
  | set (s : CharSet)
  | anchor (a : Anchor)
  | seq (p q : Pattern)
  | alt (p q : Pattern)
  /-- From `least` to `most` times, or without limit. -/
  | loop (p : Pattern) (least : Nat) (most : Option Nat)
deriving DecidableEq, Repr, Inhabited

namespace Pattern

/-- A union of two sets of positions. -/
def joinPositions (s t : List Nat) : List Nat := s ++ t.filter fun i => !s.contains i

theorem mem_joinPositions {s t : List Nat} {i : Nat} :
    i ∈ joinPositions s t ↔ i ∈ s ∨ i ∈ t := by
  simp only [joinPositions, List.mem_append, List.mem_filter, Bool.not_eq_true',
    List.contains_eq_mem, decide_eq_false_iff_not]
  grind

/-- Applies `f` to a set `n` times, or until that changes nothing. -/
def repeated (f : List Nat → List Nat) : Nat → List Nat → List Nat
  | 0, s => s
  | n + 1, s =>
    let t := f s
    if t = s then s else repeated f n t

/-- Applies `f` to a set up to `n` times and keeps the sets on the way. -/
def gathered (f : List Nat → List Nat) (n : Nat) (s : List Nat) : List Nat :=
  repeated (fun s => joinPositions s (f s)) n s

/-- The positions where a match that starts at one of `starts` may end. A gathered set has at most
`text.size + 1` members, so that many rounds reach all of them. -/
def ends (text : Array Char) : Pattern → List Nat → List Nat
  | empty, starts => starts
  | set s, starts =>
    (starts.filter fun i => text[i]?.any s.has).map (· + 1)
  | anchor a, starts =>
    starts.filter fun i => a.holds (if i = 0 then none else text[i - 1]?) text[i]?
  | seq p q, starts => q.ends text (p.ends text starts)
  | alt p q, starts => joinPositions (p.ends text starts) (q.ends text starts)
  | loop p least most, starts =>
    let rounds := text.size + 1
    gathered (p.ends text)
      (match most with
        | none => rounds
        | some most => min rounds (most - least))
      (repeated (p.ends text) least starts)

/-- Whether the pattern matches somewhere in the text. -/
def isFoundIn (p : Pattern) (text : String) : Bool :=
  let chars := text.toList.toArray
  !(p.ends chars (List.range (chars.size + 1))).isEmpty

/-- How large the pattern is with its counted repetitions written out. -/
def size : Pattern → Nat
  | empty => 0
  | set (.one c) => c.utf8Size
  | set _ => 4
  | anchor _ => 1
  | seq p q => p.size + q.size
  | alt p q => p.size + q.size + 1
  | loop p least most => p.size * max 1 (most.getD (least + 1)) + 1

end Pattern

end FormRules
