import FormRules.Decimal.Shortest

/-!
# Writing doubles

A double is written by its shortest digits. What is left to decide is a layout: whether whole
numbers keep a `.0`, where positional digits give way to an exponent, and how ties go.
-/

namespace FormRules.Decimal

/-- The choices of a format of doubles. -/
structure Layout where
  /-- Whole numbers are written with `.0`. -/
  keepsPoint : Bool
  /-- The positions of the first digit that are written positionally; `none` for all. -/
  positional : Option (Int × Int)
  /-- Which of two equally near decimals is written. -/
  tie : Tie

/-- Field values: digits only, however large or small, and no point in whole numbers. -/
def Layout.plain : Layout := ⟨false, none, .greater⟩

/-- Serialized values: a point or an exponent shows that the number is a double. -/
def Layout.exchange : Layout := ⟨true, some (-4, 16), .even⟩

/-- The digits of a positive number. -/
def digits (n : Nat) : List Char := Nat.toDigits 10 n

/-- The decimal `ds * 10 ^ e` with all its digits around the point. -/
def positionalText (keepsPoint : Bool) (ds : List Char) (e : Int) : List Char :=
  let position := ds.length + e
  if 0 ≤ e then
    ds ++ List.replicate e.toNat '0' ++ if keepsPoint then ['.', '0'] else []
  else if 0 < position then
    ds.take position.toNat ++ '.' :: ds.drop position.toNat
  else '0' :: '.' :: (List.replicate (-position).toNat '0' ++ ds)

/-- The decimal `ds * 10 ^ e` with one digit before the point and a signed exponent. -/
def exponentText (ds : List Char) (e : Int) : List Char :=
  let exponent := ds.length + e - 1
  let fraction := if ds.length ≤ 1 then [] else '.' :: ds.drop 1
  ds.take 1 ++ fraction ++ 'e' :: (if exponent < 0 then '-' else '+') :: digits exponent.natAbs

/-- A positive decimal in the layout. -/
def Layout.spell (layout : Layout) (d : Scaled) : List Char :=
  let d := d.strip 20
  let ds := digits d.digits
  let position := ds.length + d.exponent
  match layout.positional with
  | none => positionalText layout.keepsPoint ds d.exponent
  | some (low, high) =>
    if low ≤ position ∧ position ≤ high then positionalText layout.keepsPoint ds d.exponent
    else exponentText ds d.exponent

/-- The bit of a double that is its sign. -/
def signBit : Nat := 0x8000000000000000

/-- A double in the layout. -/
def Layout.text (layout : Layout) (x : Float) : String :=
  let bits := x.toBits
  let negative := signBit ≤ bits.toNat
  let magnitude := bits.toNat % signBit
  if 0x7FF0000000000000 < magnitude then "NaN"
  else
    let sign := if negative then ['-'] else []
    let body :=
      if magnitude = 0x7FF0000000000000 then ['i', 'n', 'f']
      else if magnitude = 0 then '0' :: if layout.keepsPoint then ['.', '0'] else []
      else layout.spell ((Binary.ofBits bits).shortest layout.tie)
    String.ofList (sign ++ body)

end FormRules.Decimal
