import FormRules.Decimal.Layout

/-!
# JSON texts

A JSON document is a tree. Some texts are well formed without standing for anything: a string with
half of a surrogate pair, or a number too large for a double. A tree keeps such a string or number
as `none`; a reader of data refuses it, unless it is in a part that is not read.
-/

namespace FormRules

/-- A number: whole ones up to 64 bits, with or without a sign, are kept exactly. -/
inductive JsonNumber
  | whole (n : Int)
  | fraction (x : Float)
deriving Inhabited

/-- A JSON document. -/
inductive Json
  | null
  | bool (b : Bool)
  | number (n : Option JsonNumber)
  | string (s : Option String)
  | array (xs : List Json)
  | object (members : List (Option String × Json))
deriving Inhabited

namespace Json

/-! ## Printing -/

/-- How a character is written inside a string: quotes, backslashes and controls are escaped. -/
def escape (c : Char) : List Char :=
  match c with
  | '"' => ['\\', '"']
  | '\\' => ['\\', '\\']
  | '\x08' => ['\\', 'b']
  | '\t' => ['\\', 't']
  | '\n' => ['\\', 'n']
  | '\x0c' => ['\\', 'f']
  | '\r' => ['\\', 'r']
  | c =>
    if c.toNat < 0x20 then
      ['\\', 'u', '0', '0', Nat.digitChar (c.toNat / 16), Nat.digitChar (c.toNat % 16)]
    else [c]

/-- A string in quotes. -/
def stringText (s : String) : List Char := '"' :: s.toList.flatMap escape ++ ['"']

/-- A number. -/
def numberText : JsonNumber → List Char
  | .whole n => (toString n).toList
  | .fraction x => (Decimal.Layout.exchange.text x).toList

/-- The document without blanks. What stands for nothing is written as null. -/
def chars : Json → List Char
  | null => "null".toList
  | bool b => (if b then "true" else "false").toList
  | number n => (n.map numberText).getD "null".toList
  | string s => (s.map stringText).getD "null".toList
  | array xs => '[' :: elements xs ++ [']']
  | object ms => '\x7b' :: members ms ++ ['\x7d']
where
  /-- The elements of an array between commas. -/
  elements : List Json → List Char
    | [] => []
    | [x] => chars x
    | x :: xs => chars x ++ ',' :: elements xs
  /-- The members of an object between commas. -/
  members : List (Option String × Json) → List Char
    | [] => []
    | [(k, x)] => stringText (k.getD "") ++ ':' :: chars x
    | (k, x) :: ms => stringText (k.getD "") ++ ':' :: chars x ++ ',' :: members ms

/-- The document as text. -/
def render (j : Json) : String := String.ofList j.chars

end Json

end FormRules
