import FormRules.Json.Number

/-!
# Reading JSON

`Json.parse` reads one document with blanks around it. Each function gives what it read and the rest
of the text; the fuel of the recursive ones is the length of the text.
-/

namespace FormRules.Json

/-- Drops blanks. -/
def skipBlanks (cs : List Char) : List Char := cs.dropWhile fun c => " \t\n\r".toList.contains c

/-! ## Strings -/

/-- A part of a string: a character, or half of a surrogate pair. -/
inductive Piece
  | char (c : Char)
  | half (n : Nat)
deriving Repr, Inhabited

/-- The value of a hexadecimal digit. -/
def hexDigit? (c : Char) : Option Nat :=
  if c.isDigit then some (c.toNat - 48)
  else if 'a' ≤ c ∧ c ≤ 'f' then some (c.toNat - 87)
  else if 'A' ≤ c ∧ c ≤ 'F' then some (c.toNat - 55)
  else none

/-- The part that four hexadecimal digits stand for. -/
def unitPiece (n : Nat) : Piece := if 0xD800 ≤ n ∧ n < 0xE000 then .half n else .char (Char.ofNat n)

/-- The character of a short escape. -/
def shortEscape? : Char → Option Char
  | '"' => some '"'
  | '\\' => some '\\'
  | '/' => some '/'
  | 'b' => some '\x08'
  | 'f' => some '\x0c'
  | 'n' => some '\n'
  | 'r' => some '\r'
  | 't' => some '\t'
  | _ => none

/-- Reads a string up to its closing quote. -/
def readPieces? : Nat → List Char → Option (List Piece × List Char)
  | 0, _ => none
  | fuel + 1, cs =>
    match cs with
    | '"' :: cs => some ([], cs)
    | '\\' :: 'u' :: a :: b :: c :: d :: cs => do
      let digits ← [a, b, c, d].mapM hexDigit?
      let (pieces, cs) ← readPieces? fuel cs
      return (unitPiece (digits.foldl (fun n d => 16 * n + d) 0) :: pieces, cs)
    | '\\' :: c :: cs => do
      let c ← shortEscape? c
      let (pieces, cs) ← readPieces? fuel cs
      return (.char c :: pieces, cs)
    | c :: cs => do
      if c.toNat < 0x20 ∨ c = '\\' then failure
      let (pieces, cs) ← readPieces? fuel cs
      return (.char c :: pieces, cs)
    | [] => none

/-- The text of the parts: the halves must come in pairs. -/
def joinPieces? : List Piece → Option (List Char)
  | [] => some []
  | .char c :: ps => (joinPieces? ps).map (c :: ·)
  | .half high :: .half low :: ps =>
    if high < 0xDC00 ∧ 0xDC00 ≤ low then
      (joinPieces? ps).map (Char.ofNat (0x10000 + (high - 0xD800) * 0x400 + (low - 0xDC00)) :: ·)
    else none
  | .half _ :: _ => none

/-- Reads a string behind its opening quote. -/
def readString? (fuel : Nat) (cs : List Char) : Option (Option String × List Char) :=
  (readPieces? fuel cs).map fun (pieces, cs) => ((joinPieces? pieces).map String.ofList, cs)

/-! ## Documents -/

mutual

/-- Reads a document. -/
def readValue? : Nat → List Char → Option (Json × List Char)
  | 0, _ => none
  | fuel + 1, cs =>
    match skipBlanks cs with
    | '"' :: cs => (readString? fuel cs).map fun (s, cs) => (.string s, cs)
    | '[' :: cs =>
      match skipBlanks cs with
      | ']' :: cs => some (.array [], cs)
      | cs => (readElements? fuel cs).map fun (xs, cs) => (.array xs, cs)
    | '\x7b' :: cs =>
      match skipBlanks cs with
      | '\x7d' :: cs => some (.object [], cs)
      | cs => (readMembers? fuel cs).map fun (ms, cs) => (.object ms, cs)
    | 'n' :: 'u' :: 'l' :: 'l' :: cs => some (.null, cs)
    | 't' :: 'r' :: 'u' :: 'e' :: cs => some (.bool true, cs)
    | 'f' :: 'a' :: 'l' :: 's' :: 'e' :: cs => some (.bool false, cs)
    | cs => (readLiteral? cs).map fun (l, cs) => (.number l.number?, cs)

/-- Reads the elements of an array up to its closing bracket. -/
def readElements? : Nat → List Char → Option (List Json × List Char)
  | 0, _ => none
  | fuel + 1, cs => do
    let (x, cs) ← readValue? fuel cs
    match skipBlanks cs with
    | ',' :: cs =>
      let (xs, cs) ← readElements? fuel cs
      return (x :: xs, cs)
    | ']' :: cs => return ([x], cs)
    | _ => none

/-- Reads the members of an object up to its closing brace. -/
def readMembers? : Nat → List Char → Option (List (Option String × Json) × List Char)
  | 0, _ => none
  | fuel + 1, cs =>
    match skipBlanks cs with
    | '"' :: cs => do
      let (k, cs) ← readString? fuel cs
      match skipBlanks cs with
      | ':' :: cs =>
        let (x, cs) ← readValue? fuel cs
        match skipBlanks cs with
        | ',' :: cs =>
          let (ms, cs) ← readMembers? fuel cs
          return ((k, x) :: ms, cs)
        | '\x7d' :: cs => return ([(k, x)], cs)
        | _ => none
      | _ => none
    | _ => none

end

/-- Reads a whole text. -/
def parse (text : String) : Option Json := do
  let cs := text.toList
  let (j, rest) ← readValue? (2 * cs.length + 2) cs
  if skipBlanks rest = [] then some j else none

end FormRules.Json
