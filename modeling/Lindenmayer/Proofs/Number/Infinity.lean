import Mathlib
import Lindenmayer.Drawing.Turtle

/-
  When a product is infinite.

  The product with a small factor rounds to an infinity only
  if it is one of an infinity.  So a heading is infinite in
  radians exactly when it is infinite in degrees.

  Correctness is proven by:
    * `Number.exponent_le_of_round`
    * `Number.isInf_mul_of_small`
    * `Number.isInf_radians`
-/

namespace Lindenmayer

namespace Number

open Float.Model (Format)
open Float.Model.UnpackedFloat

------------------------------------------------------------
-- Rounding
------------------------------------------------------------

theorem mantissa_shiftRight
    (em : ExtendedMantissa)
    (k : Nat) :
    (em >>> k).mantissa = em.mantissa / 2 ^ k := by
  change (k.repeat ExtendedMantissa.shiftRightOne
    em).mantissa = _
  induction k with
  | zero => simp [Nat.repeat]
  | succ k ih =>
      rw [Nat.repeat, ExtendedMantissa.shiftRightOne]
      simp only [ih]
      rw [Nat.div_div_eq_div_mul, ← Nat.pow_succ]

theorem roundedMantissa_le
    (em : ExtendedMantissa) :
    em.roundedMantissa ≤ em.mantissa + 1 := by
  unfold ExtendedMantissa.roundedMantissa
  cases em.accuracy with
  | exact => simp [Accuracy.roundToNearestEven]
  | inexact o =>
      cases o <;> simp [Accuracy.roundToNearestEven]
      omega

theorem targetExponent_eq
    (e : Int) :
    Format.binary64.targetExponent e =
      max (e - 53) (-1074) := by
  simp only [Format.targetExponent]
  rfl

/- A mantissa is shifted until 53 binary places hold it. -/
theorem exponent_shift
    (m : Nat)
    (e : Int) :
    (shiftToTargetExponent Format.binary64 m e .exact).2 =
      max e (max (m.log2 + e - 52) (-1074)) := by
  simp only [shiftToTargetExponent, shiftToExponent,
    targetExponent_eq, Float.Model.totalExponent]
  omega

theorem mantissa_shift_lt
    (m : Nat)
    (e : Int) :
    (shiftToTargetExponent Format.binary64 m e
      .exact).1.mantissa < 2 ^ 53 := by
  simp only [shiftToTargetExponent, shiftToExponent,
    targetExponent_eq, Float.Model.totalExponent,
    mantissa_shiftRight,
    ExtendedMantissa.ofMantissaAndAccuracy]
  generalize hShift :
    (max (↑m.log2 + 1 + e - 53) (-1074) - e).toNat = k
  apply Nat.div_lt_of_lt_mul
  calc
    m < 2 ^ (m.log2 + 1) := Nat.lt_log2_self
    _ ≤ 2 ^ (k + 53) :=
      Nat.pow_le_pow_right (by decide) (by omega)
    _ = 2 ^ k * 2 ^ 53 := Nat.pow_add 2 k 53

theorem log2_le_of_le
    (m k : Nat)
    (hLe : m ≤ 2 ^ k) :
    m.log2 ≤ k := by
  by_cases hZero : m = 0
  · simp [hZero]
  · have hLess : m < 2 ^ (k + 1) :=
      Nat.lt_of_le_of_lt hLe
        (Nat.pow_lt_pow_succ (by decide))
    exact Nat.le_of_lt_succ ((Nat.log2_lt hZero).mpr hLess)

/-
  What is below two to the 1023 is rounded to a number whose
  exponent is not too large for it to be finite.  Rounding up
  may carry, which takes one more binary place.
-/
theorem exponent_le_of_round
    (s s' : Sign)
    (m m' : Nat)
    (e e' : Int)
    (hMantissa : 0 < m')
    (hTop : m.log2 + e ≤ 1022)
    (hExponent : e ≤ 970)
    (hRound :
      roundWithAccuracy Format.binary64 s m e .exact =
        .finite s' m' e' hMantissa) :
    e' ≤ 971 := by
  unfold roundWithAccuracy at hRound
  have hFirst := exponent_shift m e
  have hMantissa := mantissa_shift_lt m e
  rcases hShift :
      shiftToTargetExponent Format.binary64 m e .exact with
    ⟨em, e₁⟩
  rw [hShift] at hRound hFirst hMantissa
  simp only at hRound hFirst hMantissa
  have hCarry := roundedMantissa_le em
  have hLog := log2_le_of_le em.roundedMantissa 53 (by omega)
  have hLast := exponent_shift em.roundedMantissa e₁
  split at hRound
  · cases hRound
  · cases hRound
    omega

------------------------------------------------------------
-- Packed Numbers
------------------------------------------------------------

theorem isInf_unpack_iff
    (b : BitVec Format.binary64.numBits) :
    (unpack Format.binary64 b).isInf = true ↔
      unpackExponent b = -1#11 ∧
        unpackMantissa b = 0#52 := by
  unfold unpack
  simp only
  split
  · rename_i hExponent
    split <;> rename_i hMantissa <;>
      simp [Float.Model.UnpackedFloat.isInf, hExponent,
        hMantissa]
  · rename_i hExponent
    have hNot :
        ¬ (unpackExponent b = -1#11 ∧
          unpackMantissa b = 0#52) :=
      fun hBits => hExponent hBits.1
    rw [iff_false_intro hNot, iff_false]
    split
    · split <;> exact Bool.false_ne_true
    · exact Bool.false_ne_true

/- The mantissa and the exponent of a finite number. -/
theorem bounds_of_unpack
    (b : BitVec Format.binary64.numBits)
    (s : Sign)
    (m : Nat)
    (e : Int)
    (hMantissa : 0 < m)
    (hFinite :
      unpack Format.binary64 b = .finite s m e hMantissa) :
    m < 2 ^ 53 ∧ e ≤ 971 := by
  have hMantissa : (unpackMantissa b).toNat < 2 ^ 52 :=
    (unpackMantissa b).isLt
  have hLess : (unpackExponent b).toNat < 2048 :=
    (unpackExponent b).isLt
  have hBias : Format.binary64.exponentBias = 1023 := rfl
  unfold unpack at hFinite
  simp only at hFinite
  split at hFinite
  · split at hFinite <;> cases hFinite
  · rename_i hExponent
    have hNotTop : (unpackExponent b).toNat ≠ 2047 :=
      fun hTop => hExponent (BitVec.eq_of_toNat_eq hTop)
    split at hFinite
    · rename_i hBottom
      have hZero : (unpackExponent b).toNat = 0 := by
        rw [hBottom]
        rfl
      split at hFinite <;> cases hFinite
      constructor <;> omega
    · cases hFinite
      exact ⟨(1#1 ++ unpackMantissa b).isLt, by omega⟩

/- A number with a fitting exponent stays finite. -/
theorem isInf_pack_finite
    (s : Sign)
    (m : Nat)
    (e : Int)
    (hMantissa : 0 < m)
    (hExponent : e ≤ 971) :
    (unpack Format.binary64
      (pack Format.binary64
        (.finite s m e hMantissa))).isInf = false := by
  have hBias : Format.binary64.exponentBias = 1023 := rfl
  rw [Bool.eq_false_iff, ne_eq, isInf_unpack_iff]
  rintro ⟨hTop, _⟩
  unfold pack at hTop
  simp only at hTop
  split at hTop
  · rename_i hLarge
    change 2048 ≤ _ at hLarge
    omega
  · rename_i hLarge
    change ¬ 2048 ≤ _ at hLarge
    split at hTop
    · rw [unpackExponent_packComponents] at hTop
      have hNat := congrArg BitVec.toNat hTop
      rw [BitVec.toNat_ofNat] at hNat
      change _ % 2048 = 2047 at hNat
      omega
    · rw [unpackExponent_packComponents] at hTop
      exact absurd hTop (by decide)

/- So does a number below two to the 1023, when rounded. -/
theorem isInf_pack_round
    (s : Sign)
    (m : Nat)
    (e : Int)
    (hTop : m.log2 + e ≤ 1022)
    (hExponent : e ≤ 970) :
    (unpack Format.binary64
      (pack Format.binary64
        (roundWithAccuracy Format.binary64 s m e
          .exact))).isInf = false := by
  cases hRound :
      roundWithAccuracy Format.binary64 s m e .exact with
  | notANumber => decide
  | infinity t =>
      unfold roundWithAccuracy at hRound
      simp only at hRound
      split at hRound <;> cases hRound
  | zero t => cases t <;> decide
  | finite t n f hNumber =>
      apply isInf_pack_finite
      exact exponent_le_of_round s t m n e f hNumber hTop
        hExponent hRound

------------------------------------------------------------
-- Products
------------------------------------------------------------

/-
  A factor below a half makes no infinity out of a finite
  number, and leaves an infinity infinite.
-/
theorem isInf_mul_of_small
    (x c : Float)
    (s : Sign)
    (m : Nat)
    (e : Int)
    (hMantissa : 0 < m)
    (hFactor : c.toModel.unpack = .finite s m e hMantissa)
    (hSmall : e ≤ -54) :
    (x * c).isInf = x.isInf := by
  change (unpack Format.binary64
    (pack Format.binary64
      (mul Format.binary64 x.toModel.unpack
        c.toModel.unpack))).isInf =
      x.toModel.unpack.isInf
  have hFactorBounds := bounds_of_unpack _ s m e hMantissa hFactor
  rw [hFactor]
  cases hUnpack : x.toModel.unpack with
  | notANumber =>
      simp only [mul]
      decide
  | infinity s' =>
      simp only [mul]
      cases s <;> cases s' <;> decide
  | zero s' =>
      simp only [mul]
      cases s <;> cases s' <;> decide
  | finite s' m' e' hMantissa' =>
      have hBounds := bounds_of_unpack _ s' m' e' hMantissa' hUnpack
      have hProduct : m' * m < 2 ^ 53 * 2 ^ 53 :=
        Nat.mul_lt_mul'' hBounds.1 hFactorBounds.1
      have hLog : (m' * m).log2 < 106 :=
        (Nat.log2_lt (Nat.ne_of_gt (Nat.mul_pos hMantissa' hMantissa))).mpr
          (by simpa [← Nat.pow_add] using hProduct)
      exact isInf_pack_round _ _ _ (by omega) (by omega)

/-
  A heading is infinite in radians when it is in degrees.
-/
@[simp] theorem isInf_radians
    (degrees : Float) :
    (radians degrees).isInf = degrees.isInf :=
  isInf_mul_of_small degrees _ .positive 5030569068109113
    (-58) (by decide) rfl (by decide)

end Number

end Lindenmayer
