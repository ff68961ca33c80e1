import FormRules.Json.Number
import Mathlib

/-!
# Finite doubles

A double has 53 digits in base two and an exponent of at most 971, which together bound the place of
its first digit. Rounding moves that by one place at most. So a product may overflow, and then it is
infinite (`Double.isFinite_or_isInf_mul`); a quotient by eight or more may not
(`Double.isFinite_div`).

The reader of number literals multiplies and divides by powers of ten, and checks its products. What
it gives is finite (`Literal.isFinite_of_double?`). The powers are large enough to divide by
(`Double.isLarge_power`), because rounding keeps the size of a number of many digits
(`Double.normal_roundWithAccuracy`).
-/

namespace FormRules

namespace Double

open Float.Model (Format totalExponent UnpackedFloat)
open Float.Model.UnpackedFloat

/-! ## Packing -/

/-- A number with an exponent that a double can have. -/
def Fits : UnpackedFloat → Prop
  | .zero _ => True
  | .finite _ _ e _ => e ≤ 971
  | _ => False

/-- A double from its parts. -/
def ofParts (u : UnpackedFloat) : Float := .ofModel (.pack u)

/-- A double that was made from parts has these parts, as far as they can be packed. -/
theorem unpack_ofParts (u : UnpackedFloat) :
    (ofParts u).toModel.unpack = unpack Format.binary64 (pack Format.binary64 u) := rfl

/-- A double is finite unless its exponent has all bits set. -/
theorem isFinite_unpack_iff (b : BitVec Format.binary64.numBits) :
    (unpack Format.binary64 b).isFinite = true ↔ unpackExponent b ≠ -1#11 := by
  unfold unpack
  dsimp only
  split
  · next h =>
    split <;> simp [UnpackedFloat.isFinite, h]
  · next h =>
    refine iff_of_true ?_ h
    split
    · split <;> rfl
    · rfl

/-- The exponent as a double stores it. -/
def stored (e : Int) : Nat :=
  (e + Format.binary64.exponentBias + Format.binary64.mantissaBitsWithoutImplicit).toNat

theorem stored_eq (e : Int) : stored e = (e + 1075).toNat := by
  change (e + (1023 : Nat) + (52 : Nat)).toNat = _
  omega

theorem toNat_stored {e : Int} (he : e ≤ 971) : (BitVec.ofNat 11 (stored e)).toNat = stored e := by
  have hlt : stored e < 2 ^ 11 := by
    rw [stored_eq]
    omega
  rw [BitVec.toNat_ofNat, Nat.mod_eq_of_lt hlt]

/-- The greatest stored exponent is that of infinity. -/
theorem stored_ne_all {e : Int} (he : e ≤ 971) : BitVec.ofNat 11 (stored e) ≠ -1#11 := by
  intro h
  have hall : stored e = 2047 := (toNat_stored he).symm.trans (congrArg BitVec.toNat h)
  rw [stored_eq] at hall
  omega

/-- A number is packed with its exponent, or without one if it has too few digits. -/
theorem pack_finite (s : Sign) {m : Nat} {e : Int} (hm : 0 < m) (he : e ≤ 971) :
    pack Format.binary64 (.finite s m e hm) =
      if m.log2 + 1 = Format.binary64.mantissaBits then
        packComponents Format.binary64 s (BitVec.ofNat 11 (stored e)) (BitVec.ofNat 52 m)
      else packComponents Format.binary64 s 0#11 (BitVec.ofNat 52 m) := by
  have hfits : ¬ 2 ^ Format.binary64.exponentBits ≤ stored e + 1 := by
    change ¬ 2048 ≤ stored e + 1
    rw [stored_eq]
    omega
  exact if_neg hfits

/-- A number that fits is packed as it is. -/
theorem isFinite_ofParts {u : UnpackedFloat} (hu : Fits u) : (ofParts u).isFinite = true := by
  show (ofParts u).toModel.unpack.isFinite = true
  rw [unpack_ofParts, isFinite_unpack_iff]
  cases u with
  | infinity s => exact hu.elim
  | notANumber => exact hu.elim
  | zero s => simp [pack, packedZero]
  | finite s m e hm =>
    rw [pack_finite s hm hu]
    split
    · rw [unpackExponent_packComponents]
      exact stored_ne_all hu
    · rw [unpackExponent_packComponents]
      decide

/-- Other numbers overflow. -/
theorem isFinite_or_isInf_ofParts {u : UnpackedFloat} (hu : u.isFinite = true) :
    (ofParts u).isFinite = true ∨ (ofParts u).isInf = true := by
  by_cases hfits : Fits u
  · exact .inl (isFinite_ofParts hfits)
  right
  cases u with
  | infinity s => cases hu
  | notANumber => cases hu
  | zero s => exact absurd trivial hfits
  | finite s m e hm =>
    have he : ¬ e ≤ 971 := hfits
    have hover : 2 ^ Format.binary64.exponentBits ≤ stored e + 1 := by
      change 2048 ≤ stored e + 1
      rw [stored_eq]
      omega
    have hpack : pack Format.binary64 (.finite s m e hm) = packedInfinity Format.binary64 s :=
      if_pos hover
    show (ofParts (.finite s m e hm)).toModel.unpack.isInf = true
    rw [unpack_ofParts, hpack]
    simp [packedInfinity, unpack, UnpackedFloat.isInf]

/-- The parts of a finite double. -/
theorem lt_of_unpack {b : BitVec Format.binary64.numBits} {s : Sign} {m : Nat} {e : Int}
    {hm : 0 < m} (h : unpack Format.binary64 b = .finite s m e hm) : m < 2 ^ 53 ∧ e ≤ 971 := by
  have hlast : (unpackExponent b).toNat < 2 ^ 11 := (unpackExponent b).isLt
  have hfraction : (unpackMantissa b).toNat < 2 ^ 52 := (unpackMantissa b).isLt
  have hleading : (1#1 ++ unpackMantissa b).toNat < 2 ^ 53 := (1#1 ++ unpackMantissa b).isLt
  have hbias : (Format.binary64.exponentBias : Int) = 1023 := rfl
  unfold unpack at h
  dsimp only at h
  split at h
  · split at h <;> cases h
  · next hne =>
    have hexponent : (unpackExponent b).toNat ≠ 2047 := fun h => hne (BitVec.eq_of_toNat_eq h)
    split at h
    · next hzero =>
      split at h
      · cases h
      · have hexponent : (unpackExponent b).toNat = 0 := congrArg BitVec.toNat hzero
        injection h with _ hm he
        omega
    · injection h with _ hm he
      omega

/-- The parts of a finite double are within its bounds. -/
theorem fits_unpack {x : Float} (hx : x.isFinite = true) : Fits x.toModel.unpack := by
  cases h : x.toModel.unpack with
  | infinity s => simp [Float.isFinite, Float.Model.isFinite, h, UnpackedFloat.isFinite] at hx
  | notANumber => simp [Float.isFinite, Float.Model.isFinite, h, UnpackedFloat.isFinite] at hx
  | zero s => trivial
  | finite s m e hm => exact (lt_of_unpack h).2

/-- The bits of a finite double are below those of infinity. -/
theorem isFinite_iff (x : Float) :
    x.isFinite = true ↔ x.toBits.toNat % Decimal.signBit < 0x7FF0000000000000 := by
  have hexponent : (@unpackExponent Format.binary64 x.toModel.toBits.toBitVec).toNat =
      x.toBits.toNat / 2 ^ 52 % 2 ^ 11 := by
    rw [← Nat.shiftRight_eq_div_pow]
    exact BitVec.extractLsb_toNat ..
  have hbits := x.toBits.toNat_lt
  have hne : @unpackExponent Format.binary64 x.toModel.toBits.toBitVec ≠ -1#11 ↔
      x.toBits.toNat / 2 ^ 52 % 2 ^ 11 ≠ 2047 := by
    rw [← hexponent]
    exact not_congr BitVec.toNat_inj.symm
  refine (isFinite_unpack_iff _).trans (hne.trans ?_)
  unfold Decimal.signBit
  omega

/-! ## Rounding -/

/-- To shift a mantissa is to drop its last digits. -/
theorem mantissa_shiftRight (em : ExtendedMantissa) (k : Nat) :
    (em >>> k).mantissa = em.mantissa / 2 ^ k := by
  induction k with
  | zero => exact (Nat.div_one _).symm
  | succ k ih =>
    show (em >>> k).mantissa / 2 = _
    rw [ih, Nat.div_div_eq_div_mul, Nat.pow_succ]

theorem mantissa_ofMantissaAndAccuracy (m : Nat) (accuracy : Accuracy) :
    (ExtendedMantissa.ofMantissaAndAccuracy m accuracy).mantissa = m := by
  match accuracy with
  | .exact | .inexact .lt | .inexact .eq | .inexact .gt => rfl

/-- Rounding adds one at most. -/
theorem roundedMantissa_bounds (em : ExtendedMantissa) :
    em.mantissa ≤ em.roundedMantissa ∧ em.roundedMantissa ≤ em.mantissa + 1 := by
  obtain ⟨m, r, s⟩ := em
  cases r <;> cases s <;>
    simp [ExtendedMantissa.roundedMantissa, ExtendedMantissa.accuracy, Accuracy.roundToNearestEven]
  omega

theorem log2_le_of_le {m k : Nat} (h : m ≤ 2 ^ k) : m.log2 ≤ k := by
  by_cases hm : m = 0
  · simp [hm]
  · exact (Nat.pow_le_pow_iff_right (by decide)).1 ((Nat.log2_self_le hm).trans h)

/-- A rounded mantissa has at most one digit more. -/
theorem log2_rounded {m k r : Nat} (hr : r ≤ m / 2 ^ k + 1) : r.log2 + k ≤ max (m.log2 + 1) k := by
  have hm : m < 2 ^ (max (m.log2 + 1) k - k) * 2 ^ k := by
    rw [← Nat.pow_add, Nat.sub_add_cancel (le_max_right ..)]
    exact Nat.lt_log2_self.trans_le (Nat.pow_le_pow_right (by decide) (le_max_left ..))
  have hquotient : m / 2 ^ k < 2 ^ (max (m.log2 + 1) k - k) :=
    (Nat.div_lt_iff_lt_mul (Nat.two_pow_pos k)).2 hm
  have hlog : r.log2 ≤ max (m.log2 + 1) k - k := log2_le_of_le (by omega)
  omega

/-- Rounding raises an exponent no further than the digits need. -/
theorem exponent_shiftToTargetExponent (m : Nat) (e : Int) (accuracy : Accuracy) :
    (shiftToTargetExponent Format.binary64 m e accuracy).2 =
      max e (max (totalExponent m e - 53) (-1074)) := by
  show e + ((max (totalExponent m e - 53) (-1074) - e).toNat : Int) = _
  omega

/-- A mantissa is shifted to have 53 digits, or to the lowest exponent. -/
theorem mantissa_shiftToTargetExponent (m : Nat) (e : Int) (accuracy : Accuracy) :
    (shiftToTargetExponent Format.binary64 m e accuracy).1.mantissa =
      m / 2 ^ (max (totalExponent m e - 53) (-1074) - e).toNat := by
  show (ExtendedMantissa.ofMantissaAndAccuracy m accuracy >>>
    (max (totalExponent m e - 53) (-1074) - e).toNat).mantissa = _
  rw [mantissa_shiftRight, mantissa_ofMantissaAndAccuracy]

/-- Rounding makes nothing infinite; only packing does. -/
theorem isFinite_roundWithAccuracy (s : Sign) (m : Nat) (e : Int) (accuracy : Accuracy) :
    (roundWithAccuracy Format.binary64 s m e accuracy).isFinite = true := by
  simp only [roundWithAccuracy]
  split <;> rfl

/-- Short of the last place, there is room for a carry. The first shift rounds and may carry into
another digit, which the second one drops. -/
theorem fits_roundWithAccuracy (s : Sign) {m : Nat} {e : Int} (accuracy : Accuracy) (he : e ≤ 971)
    (htop : totalExponent m e ≤ 1023) :
    Fits (roundWithAccuracy Format.binary64 s m e accuracy) := by
  have hexponent := exponent_shiftToTargetExponent m e accuracy
  have hrounded := roundedMantissa_bounds (shiftToTargetExponent Format.binary64 m e accuracy).1
  rw [mantissa_shiftToTargetExponent] at hrounded
  simp only [roundWithAccuracy]
  generalize shiftToTargetExponent Format.binary64 m e accuracy = first at *
  have hlog := log2_rounded hrounded.2
  split
  · trivial
  · show (shiftToTargetExponent Format.binary64 first.1.roundedMantissa first.2 .exact).2 ≤ 971
    rw [exponent_shiftToTargetExponent, hexponent]
    unfold totalExponent at *
    omega

/-- Cutting a number to 53 digits leaves a power of two at least, and rounding adds no other digit
than that of the next. -/
theorem log2_cut {m r : Nat} (hm : 52 ≤ m.log2) (hlow : m / 2 ^ (m.log2 - 52) ≤ r)
    (hhigh : r ≤ m / 2 ^ (m.log2 - 52) + 1) :
    52 ≤ r.log2 ∧ r.log2 ≤ 53 ∧ (r / 2 ^ (r.log2 - 52)).log2 = 52 := by
  have hpos := Nat.two_pow_pos (m.log2 - 52)
  have hne : m ≠ 0 := by
    rintro rfl
    simp at hm
  have hge : 2 ^ 52 ≤ m / 2 ^ (m.log2 - 52) := by
    rw [Nat.le_div_iff_mul_le hpos, ← Nat.pow_add, Nat.add_sub_cancel' hm]
    exact Nat.log2_self_le hne
  have hlt : m / 2 ^ (m.log2 - 52) < 2 ^ 53 := by
    rw [Nat.div_lt_iff_lt_mul hpos, ← Nat.pow_add, show 53 + (m.log2 - 52) = m.log2 + 1 by omega]
    exact Nat.lt_log2_self
  by_cases hr : r < 2 ^ 53
  · have hlog : r.log2 = 52 := (Nat.log2_eq_iff (by omega)).2 ⟨by omega, hr⟩
    simp [hlog]
  · have hlog : r = 2 ^ 53 := by omega
    subst hlog
    decide

/-- A number of many digits keeps 53 of them. -/
theorem normal_roundWithAccuracy (s : Sign) {m : Nat} {e : Int} (accuracy : Accuracy)
    (hm : 52 ≤ m.log2) (he : -1074 ≤ e) :
    ∃ m' e' hm', roundWithAccuracy Format.binary64 s m e accuracy = .finite s m' e' hm' ∧
      m'.log2 = 52 ∧ m.log2 + e ≤ 52 + e' := by
  have hexponent := exponent_shiftToTargetExponent m e accuracy
  have hrounded := roundedMantissa_bounds (shiftToTargetExponent Format.binary64 m e accuracy).1
  rw [mantissa_shiftToTargetExponent] at hrounded
  simp only [roundWithAccuracy]
  generalize shiftToTargetExponent Format.binary64 m e accuracy = first at *
  have hshift : (max (totalExponent m e - 53) (-1074) - e).toNat = m.log2 - 52 := by
    unfold totalExponent
    omega
  rw [hshift] at hrounded
  obtain ⟨hlow, hhigh, hcut⟩ := log2_cut hm hrounded.1 hrounded.2
  have hagain : (max (totalExponent first.1.roundedMantissa first.2 - 53) (-1074) -
      first.2).toNat = first.1.roundedMantissa.log2 - 52 := by
    unfold totalExponent at *
    omega
  have hmantissa := mantissa_shiftToTargetExponent first.1.roundedMantissa first.2 .exact
  rw [hagain] at hmantissa
  have hne : (shiftToTargetExponent Format.binary64 first.1.roundedMantissa first.2
      .exact).1.mantissa ≠ 0 := by
    intro h
    rw [← hmantissa, h] at hcut
    exact absurd hcut (by decide)
  refine ⟨_, _, Nat.pos_of_ne_zero hne, dif_neg hne, hmantissa ▸ hcut, ?_⟩
  rw [exponent_shiftToTargetExponent]
  unfold totalExponent at *
  omega

/-! ## Arithmetic -/

/-- The opposite of a finite double is finite. -/
theorem isFinite_neg {x : Float} (hx : x.isFinite = true) : (-x).isFinite = true := by
  have hneg : -x = ofParts x.toModel.unpack.neg := rfl
  rw [hneg]
  apply isFinite_ofParts
  have hfits := fits_unpack hx
  cases h : x.toModel.unpack <;> rw [h] at hfits <;> exact hfits

/-- A product of finite doubles is finite or infinite, but not undefined. -/
theorem isFinite_or_isInf_mul {x y : Float} (hx : x.isFinite = true) (hy : y.isFinite = true) :
    (x * y).isFinite = true ∨ (x * y).isInf = true := by
  have hmul : x * y = ofParts (mul Format.binary64 x.toModel.unpack y.toModel.unpack) := rfl
  rw [hmul]
  apply isFinite_or_isInf_ofParts
  have hx := fits_unpack hx
  have hy := fits_unpack hy
  cases h : x.toModel.unpack <;> rw [h] at hx <;>
    cases h' : y.toModel.unpack <;> rw [h'] at hy <;>
    first | exact hx.elim | exact hy.elim | rfl | exact isFinite_roundWithAccuracy ..

/-- The place of the first digit of a number. -/
def place : UnpackedFloat → Int
  | .finite _ m e _ => totalExponent m e
  | _ => 0

/-- A double of at least eight, its sign left out. -/
def IsLarge (y : Float) : Prop := 4 ≤ place y.toModel.unpack

instance (y : Float) : Decidable (IsLarge y) := inferInstanceAs (Decidable (4 ≤ _))

/-- A large double has a first digit at the place of eight or above. -/
theorem IsLarge.exists_finite {y : Float} (hy : IsLarge y) :
    ∃ s m e hm, y.toModel.unpack = .finite s m e hm ∧ 4 ≤ totalExponent m e := by
  rw [IsLarge] at hy
  cases h : y.toModel.unpack <;> rw [h] at hy
  case finite s m e hm => exact ⟨s, m, e, hm, rfl, hy⟩
  all_goals exact absurd (show (4 : Int) ≤ 0 from hy) (by decide)

theorem IsLarge.isFinite {y : Float} (hy : IsLarge y) : y.isFinite = true := by
  obtain ⟨s, m, e, hm, h, -⟩ := hy.exists_finite
  show y.toModel.unpack.isFinite = true
  rw [h]
  rfl

/-- A double of all its digits is large if its exponent is. -/
theorem isLarge_ofParts {s : Sign} {m : Nat} {e : Int} {hm : 0 < m} (hlog : m.log2 = 52)
    (hlow : 3 ≤ e) (hhigh : e ≤ 971) : IsLarge (ofParts (.finite s m e hm)) := by
  have hdigits : m.log2 + 1 = Format.binary64.mantissaBits := congrArg (· + 1) hlog
  have hbias : (Format.binary64.exponentBias : Int) = 1023 := rfl
  have hzero : BitVec.ofNat 11 (stored e) ≠ 0#11 := by
    intro h
    have hnone : stored e = 0 := (toNat_stored hhigh).symm.trans (congrArg BitVec.toNat h)
    rw [stored_eq] at hnone
    omega
  rw [IsLarge, unpack_ofParts, pack_finite s hm hhigh, if_pos hdigits]
  simp only [unpack, unpackExponent_packComponents, if_neg (stored_ne_all hhigh), if_neg hzero,
    toNat_stored hhigh, place, totalExponent]
  rw [stored_eq]
  omega

/-- The quotient has as many digits as the numbers that are divided allow. -/
theorem log2_quotient (m k : Nat) {m' : Nat} (hm' : 0 < m') :
    (m <<< k / m').log2 + m'.log2 ≤ max (m.log2 + k) m'.log2 := by
  by_cases hq : m <<< k / m' = 0
  · simp [hq]
  have hlow : 2 ^ ((m <<< k / m').log2 + m'.log2) ≤ m <<< k := calc
    _ = 2 ^ (m <<< k / m').log2 * 2 ^ m'.log2 := Nat.pow_add ..
    _ ≤ m <<< k / m' * m' := Nat.mul_le_mul (Nat.log2_self_le hq) (Nat.log2_self_le hm'.ne')
    _ ≤ m <<< k := Nat.div_mul_le_self ..
  have hhigh : m <<< k < 2 ^ (m.log2 + 1 + k) := by
    rw [Nat.shiftLeft_eq, Nat.pow_add]
    exact Nat.mul_lt_mul_of_pos_right Nat.lt_log2_self (Nat.two_pow_pos k)
  have := (Nat.pow_lt_pow_iff_right (by decide)).1 (hlow.trans_lt hhigh)
  omega

/-- A quotient is at most as long as the difference of the lengths. -/
theorem divCore_bounds {m m' q : Nat} {e e' t : Int} {accuracy : Accuracy} (hm' : 0 < m')
    (h : divCore Format.binary64 m e m' e' = (q, t, accuracy)) :
    t ≤ max (totalExponent m e - totalExponent m' e' - 53) (-1074) ∧
      totalExponent q t ≤ max (totalExponent m e - totalExponent m' e' + 1) (t + 1) := by
  have hexponent : min (e - e') (max (totalExponent m e - totalExponent m' e' - 53) (-1074)) = t :=
    congrArg (·.2.1) h
  have hquotient : m <<< (e - e' - min (e - e')
      (max (totalExponent m e - totalExponent m' e' - 53) (-1074))).toNat / m' = q :=
    congrArg (·.1) h
  rw [hexponent] at hquotient
  have hlog := log2_quotient m (e - e' - t).toNat hm'
  rw [hquotient] at hlog
  unfold totalExponent at *
  omega

/-- A quotient by a large double is finite. -/
theorem isFinite_div {x y : Float} (hx : x.isFinite = true) (hy : IsLarge y) :
    (x / y).isFinite = true := by
  have hdiv : x / y = ofParts (div Format.binary64 x.toModel.unpack y.toModel.unpack) := rfl
  rw [hdiv]
  apply isFinite_ofParts
  have hfits := fits_unpack hx
  obtain ⟨s', m', e', hm', h', hplace⟩ := hy.exists_finite
  rw [h']
  cases h : x.toModel.unpack with
  | infinity s => exact (h ▸ hfits : Fits (.infinity s)).elim
  | notANumber => exact (h ▸ hfits : Fits .notANumber).elim
  | zero s => trivial
  | finite s m e hm =>
    obtain ⟨hm, he⟩ := lt_of_unpack h
    have hlog : m.log2 ≤ 52 := Nat.le_of_lt_succ ((Nat.log2_lt (by omega)).2 hm)
    have hfirst : totalExponent m e ≤ 1024 := by
      unfold totalExponent
      omega
    rcases hcore : divCore Format.binary64 m e m' e' with ⟨q, t, accuracy⟩
    obtain ⟨hexponent, htop⟩ := divCore_bounds hm' hcore
    have ht : t ≤ 971 := by omega
    have hq : totalExponent q t ≤ 1023 := by omega
    simp only [div, hcore]
    exact fits_roundWithAccuracy _ _ ht hq

/-! ## Whole numbers and powers of ten -/

/-- A whole number of 64 bits is finite. -/
theorem fits_round (s : Sign) {n : Nat} (hn : n < 2 ^ 64) :
    Fits (UnpackedFloat.round Format.binary64 s n 0) := by
  have hlog (k : Nat) : (n <<< k).log2 ≤ 64 + k := by
    apply log2_le_of_le
    rw [Nat.shiftLeft_eq, Nat.pow_add]
    exact Nat.mul_le_mul_right _ hn.le
  simp only [UnpackedFloat.round, decreaseExponent]
  generalize (0 - Format.binary64.targetExponent (totalExponent n 0)).toNat = k
  have := hlog k
  exact fits_roundWithAccuracy _ _ (by omega) (by unfold totalExponent; omega)

/-- Whole numbers of 64 bits are finite. -/
theorem isFinite_toFloat (n : UInt64) : n.toFloat.isFinite = true := by
  have htoFloat : n.toFloat =
      ofParts (UnpackedFloat.normalize Format.binary64 n.toNat 0 .positive) := rfl
  rw [htoFloat]
  apply isFinite_ofParts
  unfold UnpackedFloat.normalize
  split
  · next h =>
    rw [Int.compare_eq_lt] at h
    omega
  · trivial
  · exact fits_round _ n.toNat_lt

/-- A large power of ten is rounded once. -/
theorem power_eq {k : Nat} (hlow : 22 < k) (hhigh : k ≤ 308) : Float.ofScientific 1 false k =
    ofParts (roundWithAccuracy Format.binary64 .positive (2 ^ 53 * 10 ^ k) (-53) .exact) := by
  have hbound : ¬ (k : Int) > 2 ^ Format.binary64.exponentBits := by
    show ¬ (k : Int) > 2048
    omega
  have hsafe : ¬ (k : Int) < -((2 ^ Format.binary64.exponentBits : Int) + (1 : Nat).log2) := by
    show ¬ (k : Int) < -(2048 + 0)
    omega
  rw [Float.ofScientific, dif_neg (by omega)]
  show ofParts (ofScientific Format.binary64 1 (k : Int)) = _
  rw [ofScientific, dif_neg (by decide), if_neg hbound, if_neg hsafe, if_pos (by omega)]
  rfl

/-- A power of ten has three binary digits or more for each of its own, and not too many. -/
theorem log2_power {k : Nat} (hk : k ≤ 307) :
    3 * k ≤ (10 ^ k).log2 ∧ (10 ^ k).log2 < 1021 ∧
      (2 ^ 53 * 10 ^ k).log2 = 53 + (10 ^ k).log2 := by
  refine ⟨?_, ?_, ?_⟩
  · rw [Nat.le_log2 (by positivity), Nat.pow_mul]
    exact Nat.pow_le_pow_left (by decide) k
  · rw [Nat.log2_lt (by positivity)]
    exact (Nat.pow_le_pow_right (by decide) hk).trans_lt (by decide +kernel)
  · rw [Nat.log2_eq_iff (by positivity), Nat.pow_add, Nat.add_assoc, Nat.pow_add]
    exact ⟨Nat.mul_le_mul_left _ (Nat.log2_self_le (by positivity)),
      Nat.mul_lt_mul_of_pos_left Nat.lt_log2_self (by decide)⟩

/-- The powers of ten that are divided by are large. The small powers are exact, and the last one
has no room for a carry. -/
theorem isLarge_power {k : Nat} (hk : k ≤ 308) (hpos : 0 < k) :
    IsLarge (Float.ofScientific 1 false k) := by
  by_cases hsmall : k ≤ 22
  · have hdecide : ∀ k < 23, 0 < k → IsLarge (Float.ofScientific 1 false k) := by decide +kernel
    exact hdecide k (by omega) hpos
  by_cases hlast : k = 308
  · subst hlast
    decide +kernel
  obtain ⟨hlow, hhigh, hlog⟩ := log2_power (show k ≤ 307 by omega)
  rw [power_eq (by omega) hk]
  generalize 2 ^ 53 * 10 ^ k = m at *
  have htop : totalExponent m (-53) ≤ 1023 := by
    unfold totalExponent
    omega
  obtain ⟨m', e', hm', hround, hlog', he'⟩ :=
    normal_roundWithAccuracy .positive .exact (show 52 ≤ m.log2 by omega)
      (show -1074 ≤ -53 by decide)
  have hfits := fits_roundWithAccuracy .positive .exact (show -53 ≤ 971 by decide) htop
  rw [hround] at hfits ⊢
  exact isLarge_ofParts hlog' (by omega) hfits

theorem isFinite_power {k : Nat} (hk : k ≤ 308) :
    (Float.ofScientific 1 false k).isFinite = true := by
  obtain rfl | hpos := Nat.eq_zero_or_pos k
  · decide +kernel
  · exact (isLarge_power hk hpos).isFinite

end Double

namespace Json

/-- A product is checked, and a quotient is less than what is divided. -/
theorem isFinite_of_scale? {n : Nat} {x y : Float} {e : Int} (hx : x.isFinite = true)
    (h : scale? n x e = some y) : y.isFinite = true := by
  induction n generalizing x e with
  | zero => exact Option.some.inj h ▸ hx
  | succ n ih =>
    rw [scale?] at h
    split at h
    · next he =>
      dsimp only at h
      split at h
      · split at h
        · cases h
        · next hinf =>
          have hor := Double.isFinite_or_isInf_mul hx (Double.isFinite_power he)
          exact Option.some.inj h ▸ hor.resolve_right hinf
      · exact Option.some.inj h ▸ Double.isFinite_div hx (Double.isLarge_power he (by omega))
    · split at h
      · exact Option.some.inj h ▸ hx
      · split at h
        · cases h
        · exact ih (Double.isFinite_div hx (Double.isLarge_power (by decide) (by decide))) h

/-- What a literal is read as is finite, since the reader refuses infinite products. -/
theorem isFinite_of_double? {negative : Bool} {significand : Nat} {exponent : Int} {x : Float}
    (h : double? negative significand exponent = some x) : x.isFinite = true := by
  obtain ⟨y, hscale, rfl⟩ := Option.map_eq_some_iff.1 h
  have hy := isFinite_of_scale? (Double.isFinite_toFloat _) hscale
  split
  · exact Double.isFinite_neg hy
  · exact hy

/-- No literal reads as an infinity. -/
theorem Literal.isFinite_of_double? {l : Literal} {x : Float} (h : l.double? = some x) :
    x.isFinite = true := by
  simp only [Literal.double?] at h
  split at h
  · exact Json.isFinite_of_double? h
  · split at h
    · split at h
      · cases h
      · exact Json.isFinite_of_double? h
    · exact Json.isFinite_of_double? h

end Json

end FormRules
