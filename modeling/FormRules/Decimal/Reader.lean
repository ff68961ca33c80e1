/-!
# Reading doubles

A double literal is a sign, digits with an optional point, and an optional exponent, or a name for
infinity or not-a-number. It is rounded to the nearest double.
-/

namespace FormRules.Decimal

/-- The value of a digit. -/
def digitValue (c : Char) : Nat := c.toNat - '0'.toNat

/-- The number that a list of digits spells, after `n`. -/
def readDigits (n : Nat) (cs : List Char) : Nat := cs.foldl (fun n c => 10 * n + digitValue c) n

/-- The double nearest to `n * 10 ^ e`. Beyond the range of doubles the power is not computed. -/
def nearest (n : Nat) (e : Int) : Float :=
  let size : Int := (Nat.toDigits 10 n).length + e
  if n = 0 ∨ size < -330 then 0
  else if 310 < size then 1 / 0
  else Float.ofScientific n (e < 0) e.natAbs

/-- A sign in front of a text. -/
def splitSign : List Char → Bool × List Char
  | '-' :: cs => (true, cs)
  | '+' :: cs => (false, cs)
  | cs => (false, cs)

/-- The exponent at the end of a literal. -/
def readExponent? : List Char → Option Int
  | [] => some 0
  | c :: cs =>
    let (negative, ds) := splitSign cs
    if (c = 'e' ∨ c = 'E') ∧ ds ≠ [] ∧ ds.all Char.isDigit then
      some (if negative then -(readDigits 0 ds : Int) else readDigits 0 ds)
    else none

/-- The value of a literal without its sign. -/
def readMagnitude? (cs : List Char) : Option Float :=
  let name := String.ofList (cs.map Char.toLower)
  if name = "nan" then some (0 / 0)
  else if name = "inf" ∨ name = "infinity" then some (1 / 0)
  else
    let whole := cs.takeWhile Char.isDigit
    let rest := cs.dropWhile Char.isDigit
    let (fraction, rest) := match rest with
      | '.' :: rest => (rest.takeWhile Char.isDigit, rest.dropWhile Char.isDigit)
      | rest => ([], rest)
    if whole = [] ∧ fraction = [] then none
    else (readExponent? rest).map fun e =>
      nearest (readDigits 0 (whole ++ fraction)) (e - fraction.length)

/-- The double that a literal stands for. -/
def readFloat? (s : String) : Option Float :=
  let (negative, cs) := splitSign s.toList
  (readMagnitude? cs).map fun x => if negative then -x else x

end FormRules.Decimal
