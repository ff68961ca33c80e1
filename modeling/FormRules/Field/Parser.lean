import FormRules.Field.Spec
import FormRules.Text.Blank
import FormRules.Text.Cut

/-!
# Reading field identifiers

An identifier is read from left to right: a name, its values behind colons, and after a comma the
next name. Blanks may stand around a selector, and a value keeps the blanks in front of it. Reading
fails where a name should start, or where selectors have ended and text is left. The failure carries
the byte where the reader stood.
-/

namespace FormRules

open Text

/-- What was missing where the reader stopped. -/
inductive Expected
  | fieldName
  | endOfPiece
deriving DecidableEq, Repr

/-- Where reading stopped, in bytes from the start, and why. -/
structure ParseFailure where
  offset : Nat
  expected : Expected
deriving DecidableEq, Repr

namespace Selector

/-- Whether a character may stand in a name. -/
def isNameChar (c : Char) : Bool := c != ',' && c != ':' && !isBlank c

/-- Whether a character may stand in a value. -/
def isValueChar (c : Char) : Bool := c != ',' && c != ':'

/-- Reads values, each behind a colon, and gives them with the text behind them. -/
def readValues : List Char → List String × List Char
  | ':' :: cs =>
    let (values, rest) := readValues (cs.dropWhile isValueChar)
    (String.ofList (trimEnd (cs.takeWhile isValueChar)) :: values, rest)
  | cs => ([], cs)
termination_by cs => cs.length
decreasing_by exact Nat.lt_succ_of_le (List.dropWhile_suffix isValueChar).length_le

theorem readValues_suffix (cs : List Char) : (readValues cs).2 <:+ cs := by
  fun_induction readValues cs with
  | case1 cs values rest heq ih =>
    rw [heq] at ih
    exact (ih.trans (List.dropWhile_suffix isValueChar)).trans (List.suffix_cons ':' cs)
  | case2 cs => exact List.suffix_rfl

/-- Reads one selector, and gives it with the text behind it. A failure is the text from where the
name should have started. -/
def read (cs : List Char) : Except (List Char) (Selector × List Char) :=
  let start := trimStart cs
  let name := start.takeWhile isNameChar
  if name = [] then .error start
  else
    let (values, rest) := readValues (start.dropWhile isNameChar)
    .ok (⟨String.ofList name, values⟩, trimStart rest)

theorem length_of_read {cs rest : List Char} {s : Selector} (h : read cs = .ok (s, rest)) :
    rest.length < cs.length := by
  unfold read at h
  dsimp only at h
  split at h
  · simp at h
  · next hname =>
    obtain ⟨-, rfl⟩ := Prod.mk.inj (Except.ok.inj h)
    have hblanks := (List.dropWhile_suffix (l := cs) isBlank).length_le
    have hvalues := (readValues_suffix ((trimStart cs).dropWhile isNameChar)).length_le
    have hrest := (List.dropWhile_suffix isBlank
      (l := (readValues ((trimStart cs).dropWhile isNameChar)).2)).length_le
    have hcut := congrArg List.length
      (List.takeWhile_append_dropWhile (p := isNameChar) (l := trimStart cs))
    have hpos := List.length_pos_iff.2 hname
    simp only [trimStart, List.length_append] at *
    omega

/-- Reads selectors, each behind a comma but the first, and gives them with the text behind them. -/
def readAll (cs : List Char) : Except (List Char) (List Selector × List Char) :=
  match _h : read cs with
  | .error left => .error left
  | .ok (s, ',' :: rest) => (readAll rest).map fun (ss, left) => (s :: ss, left)
  | .ok (s, left) => .ok ([s], left)
termination_by cs.length
decreasing_by
  have := length_of_read _h
  rw [List.length_cons] at this
  omega

/-- Reads a list of selectors, to the end of the text. -/
def parseList (input : String) : Except ParseFailure (List Selector) :=
  let cs := input.toList
  let offset (left : List Char) := byteSize cs - byteSize left
  match readAll cs with
  | .error left => .error ⟨offset left, .fieldName⟩
  | .ok (ss, []) => .ok ss
  | .ok (_, left) => .error ⟨offset left, .endOfPiece⟩

end Selector

namespace Spec

/-- Reads an identifier; a blank one stands for every field. -/
def parse (input : String) : Except ParseFailure Spec :=
  if input.toList.all isBlank then .ok .all
  else (Selector.parseList input).map .fields

/-- Reads an identifier; a malformed one picks no field. -/
def lenient (input : String) : Spec :=
  match parse input with
  | .ok s => s
  | .error _ => .fields []

theorem lenient_of_parse {input : String} {s : Spec} (h : parse input = .ok s) :
    lenient input = s := by simp [lenient, h]

end Spec

/-! ## The text of a failure -/

/-- An identifier that could not be read. -/
structure ParseError where
  input : String
  failure : ParseFailure
deriving DecidableEq, Repr

namespace ParseError

/-- The text up to the failure and the text from it. -/
def cut (offset : Nat) : List Char → List Char → List Char × List Char
  | before, [] => (before, [])
  | before, c :: cs =>
    if offset < c.utf8Size then (before, c :: cs)
    else cut (offset - c.utf8Size) (before ++ [c]) cs

/-- The line that a failure is on, counted from zero, and its column there. A failure at the end of
the text is one column behind the last character. Columns count characters; where the failing
character takes several bytes they count bytes. -/
def position (before after : List Char) : Nat × Nat :=
  let onLine (cs : List Char) := (cs.reverse.takeWhile (· != '\n')).reverse
  match after with
  | [] =>
    let init := before.dropLast
    (init.count '\n', (onLine init).length + 1)
  | c :: _ =>
    let line := onLine before
    (before.count '\n', if c.utf8Size = 1 then line.length else byteSize line)

/-- What the last line of a failure says. -/
def expectation : Expected → List Char
  | .fieldName => "expected field name".toList
  | .endOfPiece => []

/-- A picture of the failure: the text, or its line behind a gutter, and a caret below. -/
def detail (e : ParseError) : String :=
  let text := e.input.toList
  let spaces (n : Nat) := List.replicate n ' '
  let last := expectation e.failure.expected
  String.ofList <|
    if '\n' ∈ text then
      let (before, after) := cut e.failure.offset [] text
      let (line, column) := position before after
      let number := Nat.toDigits 10 (line + 1)
      let gutter := spaces number.length
      "parse error at line ".toList ++ number ++ ", column ".toList ++
        Nat.toDigits 10 (column + 1) ++ '\n' ::
        (gutter ++ " |\n".toList) ++ (number ++ " | ".toList) ++
        (splitOn '\n' text)[line]?.getD [] ++ '\n' ::
        (gutter ++ " | ".toList) ++ spaces column ++ "^\n".toList ++ last
    else text ++ '\n' :: spaces e.failure.offset ++ "^\n".toList ++ last

/-- The whole message. -/
def message (e : ParseError) : String :=
  "invalid field identifier '" ++ e.input ++ "': " ++ e.detail

end ParseError

end FormRules
