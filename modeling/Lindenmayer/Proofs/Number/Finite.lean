import Mathlib
import Lindenmayer.Decimal.Binary
import Lindenmayer.Proofs.Number.Infinity

/-
  Finite numbers, and what is left of them by arithmetic.

  A number that is not finite never becomes finite again: not
  by adding to it or subtracting, nor by multiplying it.

  Key definitions include:
    * `Binary.isFinite`
    * `Binary.isNaN`
    * `Binary.ofUnpacked`

  Correctness is proven by:
    * `Binary.ofFloat_eq`
    * `Binary.isFinite_ofFloat`
    * `Binary.isNaN_ofFloat`
    * `Number.eq_of_not_finite`
    * `Number.isFinite_of_add`
    * `Number.isFinite_of_sub`
    * `Number.isFinite_of_mul`
-/

------------------------------------------------------------
-- Content
------------------------------------------------------------

namespace Lindenmayer

namespace Binary

open Float.Model (Format)
open Float.Model.UnpackedFloat

/- Whether a content is that of a finite number. -/
def isFinite : Binary → Bool
  | .finite _ _ _ => true
  | _ => false

/- Whether a content is that of no number. -/
def isNaN : Binary → Bool
  | .nan => true
  | _ => false

/- Whether a sign is that of a negative number. -/
def isNegative : Sign → Bool
  | .positive => false
  | .negative => true

/- The content of an unpacked number. -/
def ofUnpacked : Float.Model.UnpackedFloat → Binary
  | .notANumber => .nan
  | .infinity s => .infinite (isNegative s)
  | .zero s => .finite (isNegative s) 0 (-1074)
  | .finite s m e _ => .finite (isNegative s) m e

/- The sign of a number as its bits have it. -/
theorem isNegative_unpackSign
    (b : BitVec Format.binary64.numBits) :
    isNegative (Sign.ofBitVec (unpackSign b)) =
      decide (b.toNat / 2 ^ 63 % 2 = 1) := by
  have hToNat :
      (unpackSign b).toNat = b.toNat / 2 ^ 63 % 2 := by
    rw [unpackSign, BitVec.toNat_cast,
      BitVec.extractLsb_toNat, Nat.shiftRight_eq_div_pow]
    rfl
  rw [← hToNat]
  generalize unpackSign b = s
  revert s
  decide

/- The exponent of a number as its bits have it. -/
theorem toNat_unpackExponent
    (b : BitVec Format.binary64.numBits) :
    (unpackExponent b).toNat =
      b.toNat / 2 ^ 52 % 2 ^ 11 := by
  rw [unpackExponent, BitVec.toNat_cast,
    BitVec.extractLsb_toNat, Nat.shiftRight_eq_div_pow]
  rfl

/- The fraction of a number as its bits have it. -/
theorem toNat_unpackMantissa
    (b : BitVec Format.binary64.numBits) :
    (unpackMantissa b).toNat = b.toNat % 2 ^ 52 := by
  rw [unpackMantissa, BitVec.toNat_cast,
    BitVec.extractLsb_toNat, Nat.shiftRight_eq_div_pow,
    Nat.pow_zero, Nat.div_one]
  rfl

/- The content of bits is what they are unpacked to. -/
theorem ofBits_toNat
    (b : BitVec Format.binary64.numBits) :
    ofBits b.toNat =
      ofUnpacked (unpack Format.binary64 b) := by
  have hSign := isNegative_unpackSign b
  have hExponent := toNat_unpackExponent b
  have hMantissa := toNat_unpackMantissa b
  have hBias : Format.binary64.exponentBias = 1023 := rfl
  have hTop :
      unpackExponent b = -1#11 ↔
        b.toNat / 2 ^ 52 % 2 ^ 11 = 2 ^ 11 - 1 := by
    rw [← hExponent]
    exact BitVec.toNat_inj.symm
  have hBottom :
      unpackExponent b = 0#11 ↔
        b.toNat / 2 ^ 52 % 2 ^ 11 = 0 := by
    rw [← hExponent]
    exact BitVec.toNat_inj.symm
  have hZero :
      unpackMantissa b = 0#52 ↔ b.toNat % 2 ^ 52 = 0 := by
    rw [← hMantissa]
    exact BitVec.toNat_inj.symm
  unfold ofBits
  simp only [← hSign, ← hTop, ← hBottom, ← hZero]
  unfold unpack
  simp only
  split
  · split <;> rfl
  · split
    · split
      · rename_i hEmpty
        rw [ofUnpacked, hZero.mp hEmpty]
      · rename_i hExponentZero _
        rw [ofUnpacked, ← hMantissa, hExponentZero, hBias]
        rfl
    · have hNormal :
          (1#1 ++ unpackMantissa b).toNat =
            b.toNat % 2 ^ 52 + 2 ^ 52 := by
        change 2 ^ 52 ||| (unpackMantissa b).toNat = _
        rw [Nat.or_comm,
          Nat.or_two_pow_eq_add_of_lt (unpackMantissa b).isLt,
          hMantissa]
      rw [ofUnpacked, hNormal, hExponent, hBias]
      rfl

/- So is the content of a number. -/
theorem ofFloat_eq
    (x : Float) :
    ofFloat x = ofUnpacked x.toModel.unpack :=
  ofBits_toNat x.toModel.toBits.toBitVec

theorem isFinite_ofFloat
    (x : Float) :
    (ofFloat x).isFinite = x.isFinite := by
  rw [ofFloat_eq]
  change _ = x.toModel.unpack.isFinite
  cases x.toModel.unpack <;> rfl

theorem isNaN_ofFloat
    (x : Float) :
    (ofFloat x).isNaN = x.isNaN := by
  rw [ofFloat_eq]
  change _ = x.toModel.unpack.isNaN
  cases x.toModel.unpack <;> rfl

end Binary

------------------------------------------------------------
-- Arithmetic
------------------------------------------------------------

namespace Number

open Float.Model (Format)
open Float.Model.UnpackedFloat

/- Numbers are the same when they are unpacked to the same. -/
theorem eq_of_unpack_eq
    {x y : Float}
    (hUnpack : x.toModel.unpack = y.toModel.unpack) :
    x = y := by
  rw [← Float.toBits_inj, ← UInt64.toBitVec_inj]
  exact (unpack_inj_of_valid x.toModel.valid
    y.toModel.valid).mp hUnpack

/- There are three numbers that are not finite. -/
theorem eq_of_not_finite
    {x : Float}
    (hNotFinite : x.isFinite = false) :
    x = .nan ∨ x = .inf ∨ x = -.inf := by
  change x.toModel.unpack.isFinite = false at hNotFinite
  cases hUnpack : x.toModel.unpack with
  | notANumber => exact .inl (eq_of_unpack_eq hUnpack)
  | infinity s =>
      cases s with
      | positive =>
          exact .inr (.inl
            (eq_of_unpack_eq (hUnpack.trans rfl)))
      | negative =>
          exact .inr (.inr
            (eq_of_unpack_eq (hUnpack.trans rfl)))
  | zero s =>
      rw [hUnpack] at hNotFinite
      cases hNotFinite
  | finite s m e hMantissa =>
      rw [hUnpack] at hNotFinite
      cases hNotFinite

/- What is above zero is a number. -/
theorem isNaN_of_pos
    {x : Float}
    (hPos : 0.0 < x) :
    x.isNaN = false := by
  rw [Float.isNaN_eq_decide_eq_nan, decide_eq_false_iff_not]
  rintro rfl
  exact absurd hPos (by decide)

/- What is not finite is not finite when it is packed. -/
theorem isFinite_of_pack
    {u : Float.Model.UnpackedFloat}
    (hFinite :
      (unpack Format.binary64
        (pack Format.binary64 u)).isFinite = true) :
    u.isFinite = true := by
  cases u with
  | notANumber => exact absurd hFinite (by decide)
  | infinity s =>
      cases s <;> exact absurd hFinite (by decide)
  | zero s => rfl
  | finite s m e hMantissa => rfl

/-
  A sum is finite only if both its terms are.  Where neither
  term is finite it is infinite, or no number.
-/
theorem isFinite_of_add
    {a b : Float}
    (hFinite : (a + b).isFinite = true) :
    a.isFinite = true ∧ b.isFinite = true := by
  have hSum :
      (add Format.binary64 a.toModel.unpack
        b.toModel.unpack).isFinite = true :=
    isFinite_of_pack hFinite
  change a.toModel.unpack.isFinite = true ∧
    b.toModel.unpack.isFinite = true
  generalize a.toModel.unpack = u at hSum ⊢
  generalize b.toModel.unpack = v at hSum ⊢
  unfold add at hSum
  split at hSum <;>
    first
    | exact ⟨rfl, rfl⟩
    | exact ⟨rfl, hSum⟩
    | exact ⟨hSum, rfl⟩
    | cases hSum
    | (split at hSum <;> cases hSum)

/- So is a difference. -/
theorem isFinite_of_sub
    {a b : Float}
    (hFinite : (a - b).isFinite = true) :
    a.isFinite = true ∧ b.isFinite = true := by
  have hDifference :
      (sub Format.binary64 a.toModel.unpack
        b.toModel.unpack).isFinite = true :=
    isFinite_of_pack hFinite
  change a.toModel.unpack.isFinite = true ∧
    b.toModel.unpack.isFinite = true
  generalize a.toModel.unpack = u at hDifference ⊢
  generalize b.toModel.unpack = v at hDifference ⊢
  unfold sub at hDifference
  split at hDifference <;>
    first
    | exact ⟨rfl, rfl⟩
    | exact ⟨hDifference, rfl⟩
    | cases hDifference
    | (split at hDifference <;> cases hDifference)

/- A product is finite only if both its factors are. -/
theorem isFinite_of_mul
    {a b : Float}
    (hFinite : (a * b).isFinite = true) :
    a.isFinite = true ∧ b.isFinite = true := by
  have hProduct :
      (mul Format.binary64 a.toModel.unpack
        b.toModel.unpack).isFinite = true :=
    isFinite_of_pack hFinite
  change a.toModel.unpack.isFinite = true ∧
    b.toModel.unpack.isFinite = true
  generalize a.toModel.unpack = u at hProduct ⊢
  generalize b.toModel.unpack = v at hProduct ⊢
  unfold mul at hProduct
  split at hProduct <;>
    first
    | exact ⟨rfl, rfl⟩
    | cases hProduct

end Number

end Lindenmayer
