/-!
# The shortest decimal of a binary fraction

A finite double is `m * 2 ^ q`. Every real closer to it than to its neighbours reads back as the same
double, and the two ends of that interval do so too when `m` is even. The shortest decimal of the
double is the one with the fewest digits in the interval, and of those the nearest.

The search is exact: value, ends and candidates are natural numbers over one denominator. For
`n = 1, 2, …, 17` digits it tries the value's two neighbours on the grid of `n`-digit decimals. Where
both are equally near, the format decides.
-/

namespace FormRules.Decimal

/-- A decimal `digits * 10 ^ exponent`. -/
structure Scaled where
  digits : Nat
  exponent : Int
deriving DecidableEq, Repr, Inhabited

/-- Which of two decimals is taken when both are equally near. -/
inductive Tie
  | greater
  | even
deriving DecidableEq, Repr

/-- A positive binary fraction with the interval of reals that read back as it: in units of
`2 ^ unit`, the value is `4 * m`, and the interval reaches `below` under and `2` above it. -/
structure Binary where
  m : Nat
  unit : Int
  below : Nat
deriving DecidableEq, Repr

/-- The bit in front of the fraction of a normal double, which its bits leave out. -/
def leadingBit : Nat := 0x10000000000000

/-- The parts of a positive finite double: a power of two has its lower neighbour at half the
distance. -/
def Binary.ofParts (fraction exponent : Nat) : Binary :=
  if exponent = 0 then ⟨fraction, -1076, 2⟩
  else ⟨leadingBit + fraction, exponent - 1077, if fraction = 0 ∧ 1 < exponent then 1 else 2⟩

/-- The parts of the bits of a double, its sign left out. -/
def Binary.ofBits (bits : UInt64) : Binary :=
  .ofParts (bits.toNat % leadingBit) (bits.toNat / leadingBit % 0x800)

namespace Binary

/-- The factor that clears a negative power of two. -/
def scale (b : Binary) : Nat := Nat.pow 2 (-b.unit).toNat

/-- `k` units of the fraction, times `scale`. -/
def units (b : Binary) (k : Nat) : Nat := k * Nat.pow 2 b.unit.toNat

/-- Whether `t * 10 ^ e` reads back as the fraction. -/
def admits (b : Binary) (t : Nat) (e : Int) : Bool :=
  let x := t * Nat.pow 10 e.toNat * b.scale
  let ten := Nat.pow 10 (-e).toNat
  let low := b.units (4 * b.m - b.below) * ten
  let high := b.units (4 * b.m + 2) * ten
  if b.m % 2 = 0 then low ≤ x && x ≤ high else low < x && x < high

/-- The decimal's distance from the fraction, times `scale` and a power of ten that depends on the
exponent alone. -/
def distance (b : Binary) (t : Nat) (e : Int) : Nat :=
  let x := t * Nat.pow 10 e.toNat * b.scale
  let v := b.units (4 * b.m) * Nat.pow 10 (-e).toNat
  if x ≤ v then v - x else x - v

/-- The greatest multiple of `10 ^ e` that is no more than the fraction, in units of `10 ^ e`. -/
def floorAt (b : Binary) (e : Int) : Nat :=
  b.units (4 * b.m) * Nat.pow 10 (-e).toNat / (Nat.pow 10 e.toNat * b.scale)

/-- The nearer of two neighbours on the grid of `10 ^ e`. -/
def nearer (b : Binary) (tie : Tie) (low high : Nat) (e : Int) : Nat :=
  if b.distance low e < b.distance high e then low
  else if b.distance high e < b.distance low e then high
  else if tie = .even ∧ low % 2 = 0 then low
  else high

/-- The neighbour on the grid of `10 ^ e` that reads back as the fraction, of two the nearer. -/
def onGrid? (b : Binary) (tie : Tie) (e : Int) : Option Scaled :=
  let low := b.floorAt e
  let high := low + 1
  match b.admits low e, b.admits high e with
  | true, true => some ⟨b.nearer tie low high e, e⟩
  | true, false => some ⟨low, e⟩
  | false, true => some ⟨high, e⟩
  | false, false => none

/-- The exponent of the fraction's first digit, plus one: `10 ^ (p - 1) ≤ value < 10 ^ p`. -/
def position (b : Binary) : Int :=
  let whole := b.floorAt 0
  if 0 < whole then (Nat.toDigits 10 whole).length
  else
    let steps := (List.range 330).takeWhile fun k => b.floorAt (-(k + 1 : Nat)) == 0
    Int.neg steps.length

/-- The first grid, from one digit to `n + 1` more, with a decimal that reads back. -/
def search (b : Binary) (tie : Tie) (position : Int) : Nat → Nat → Option Scaled
  | 0, _ => none
  | n + 1, digits =>
    match b.onGrid? tie (position - digits) with
    | some d => some d
    | none => search b tie position n (digits + 1)

/-- The shortest decimal that reads back; seventeen digits always suffice. -/
def shortest (b : Binary) (tie : Tie) : Scaled :=
  (b.search tie b.position 17 1).getD ⟨0, 0⟩

theorem nearer_or (b : Binary) (tie : Tie) (low high : Nat) (e : Int) :
    b.nearer tie low high e = low ∨ b.nearer tie low high e = high := by
  unfold nearer
  grind

/-- A decimal that the grid offers reads back. -/
theorem admits_of_onGrid? {b : Binary} {tie : Tie} {e : Int} {d : Scaled}
    (h : b.onGrid? tie e = some d) :
    b.admits d.digits d.exponent = true := by
  simp only [onGrid?] at h
  split at h <;> simp only [Option.some.injEq, reduceCtorEq] at h <;> subst h
  · next hl hh =>
    rcases nearer_or b tie (b.floorAt e) (b.floorAt e + 1) e with h | h <;> simp only [h, hl, hh]
  · assumption
  · assumption

end Binary

/-- The decimal without zeros at the end of its digits. -/
def Scaled.strip : Nat → Scaled → Scaled
  | 0, d => d
  | n + 1, d => if d.digits % 10 = 0 ∧ d.digits ≠ 0 then strip n ⟨d.digits / 10, d.exponent + 1⟩ else d

end FormRules.Decimal
