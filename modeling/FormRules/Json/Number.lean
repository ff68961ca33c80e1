import FormRules.Decimal.Reader
import FormRules.Json.Basic

/-!
# JSON numbers

A number literal that fits 64 bits is kept exactly. Any other is a double, computed from the digits
that fit into a 64-bit significand and one power of ten. That is not always the nearest double: both
the significand and the product are rounded.
-/

namespace FormRules.Json

/-- A literal in parts: its sign, the digits before the point, the digits behind it if there is one,
and the exponent if there is one. -/
structure Literal where
  negative : Bool
  whole : List Char
  fraction : Option (List Char)
  exponent : Option Int
deriving Repr, Inhabited

/-- The largest significand. -/
def significandLimit : Nat := 0xFFFFFFFFFFFFFFFF

/-- Takes digits into a significand as long as they fit, and gives those that do not. -/
def takeDigits (significand : Nat) : List Char → Nat × List Char
  | [] => (significand, [])
  | d :: ds =>
    let next := 10 * significand + Decimal.digitValue d
    if next ≤ significandLimit then takeDigits next ds else (significand, d :: ds)

/-- `x * 10 ^ e`, by at most `n` divisions by the largest power; `none` beyond the range. -/
def scale? : Nat → Float → Int → Option Float
  | 0, x, _ => some x
  | n + 1, x, e =>
    if e.natAbs ≤ 308 then
      let power := Float.ofScientific 1 false e.natAbs
      if 0 ≤ e then
        let y := x * power
        if y.isInf then none else some y
      else some (x / power)
    else if x == 0 then some x
    else if 0 ≤ e then none
    else scale? n (x / Float.ofScientific 1 false 308) (e + 308)

/-- The double of a significand and a power of ten. -/
def double? (negative : Bool) (significand : Nat) (exponent : Int) : Option Float :=
  (scale? 4 (UInt64.ofNat significand).toFloat exponent).map fun x => if negative then -x else x

/-- The double of a literal. An exponent of more than 31 bits makes it zero or too large. -/
def Literal.double? (l : Literal) : Option Float :=
  let (significand, ignored) := takeDigits 0 l.whole
  let fraction := l.fraction.getD []
  let (significand, rest) := takeDigits significand fraction
  let exponent : Int := ignored.length - (fraction.length - rest.length : Nat)
  match l.exponent with
  | none => Json.double? l.negative significand exponent
  | some e =>
    if 0x80000000 ≤ e.natAbs then
      if significand ≠ 0 ∧ 0 < e then none else Json.double? l.negative 0 0
    else Json.double? l.negative significand (exponent + e)

/-- The number of a literal. A negative zero is a double, and so is a whole number of more than 64
bits. -/
def Literal.number? (l : Literal) : Option JsonNumber :=
  let n := Decimal.readDigits 0 l.whole
  let isWhole := l.fraction = none ∧ l.exponent = none
  if isWhole ∧ l.negative = false ∧ n ≤ significandLimit then some (.whole n)
  else if isWhole ∧ l.negative ∧ 0 < n ∧ n ≤ 0x8000000000000000 then some (.whole (-n))
  else l.double?.map .fraction

/-- Reads digits, of which there must be one. -/
def readDigits? (cs : List Char) : Option (List Char × List Char) :=
  let ds := cs.takeWhile Char.isDigit
  if ds = [] then none else some (ds, cs.dropWhile Char.isDigit)

/-- Reads a minus sign, if there is one. -/
def readSign : List Char → Bool × List Char
  | '-' :: cs => (true, cs)
  | cs => (false, cs)

/-- Reads a point and the digits behind it, if there is one. -/
def readFraction? : List Char → Option (Option (List Char) × List Char)
  | '.' :: cs => (readDigits? cs).map fun (ds, cs) => (some ds, cs)
  | cs => some (none, cs)

/-- Reads an exponent, if there is one. -/
def readExponent? : List Char → Option (Option Int × List Char)
  | c :: cs =>
    if c = 'e' ∨ c = 'E' then
      let (minus, cs) := Decimal.splitSign cs
      (readDigits? cs).map fun (ds, cs) =>
        let e : Int := Decimal.readDigits 0 ds
        (some (if minus then -e else e), cs)
    else some (none, c :: cs)
  | [] => some (none, [])

/-- Reads a number literal. A zero in front stands alone. -/
def readLiteral? (cs : List Char) : Option (Literal × List Char) := do
  let (negative, cs) := readSign cs
  let (whole, cs) ← readDigits? cs
  if whole.head? = some '0' ∧ 1 < whole.length then failure
  let (fraction, cs) ← readFraction? cs
  let (exponent, cs) ← readExponent? cs
  return (⟨negative, whole, fraction, exponent⟩, cs)

end FormRules.Json
