import Lindenmayer.Proofs.Number.Finite

/-
  The exact value of finite numbers.

  A number is below or above zero as its sign says, unless it
  is one of the two zeros.  When the sign of a zero is dropped
  a number keeps its value, and has a sign only if it is below
  zero.

  Key definitions include:
    * `Binary.signed`
    * `Binary.value`

  Correctness is proven by:
    * `Number.lt_iff_unpack`
    * `Number.not_neg_of_pos`
    * `Number.exists_content`
-/

------------------------------------------------------------
-- Values
------------------------------------------------------------

namespace Lindenmayer

namespace Binary

/- A value with a sign. -/
def signed
    (negative : Bool)
    (q : ℚ) : ℚ :=
  if negative then -q else q

/- The value of a content that is finite. -/
def value : Binary → ℚ
  | .finite negative m e => signed negative (m * 2 ^ e)
  | _ => 0

/- Zero is the same with both signs. -/
@[simp] theorem signed_eq_zero_iff
    (negative : Bool)
    (q : ℚ) :
    signed negative q = 0 ↔ q = 0 := by
  cases negative <;> simp [signed]

@[simp] theorem abs_signed
    (negative : Bool)
    (q : ℚ) :
    |signed negative q| = |q| := by
  cases negative with
  | false => rfl
  | true => exact abs_neg q

theorem abs_signed_sub
    (negative : Bool)
    (q r : ℚ) :
    |signed negative q - signed negative r| = |q - r| := by
  cases negative with
  | false => rfl
  | true =>
      simp only [signed, if_true]
      rw [← neg_sub', abs_neg]

/- A value other than zero has one sign. -/
theorem signed_inj
    {negative other : Bool}
    {q r : ℚ}
    (hNonneg : 0 ≤ q)
    (hOther : 0 ≤ r)
    (hEqual : signed negative q = signed other r) :
    q = r ∧ (q ≠ 0 → negative = other) := by
  cases negative <;> cases other <;>
    simp only [signed, if_true, Bool.false_eq_true, if_false]
      at hEqual
  · exact ⟨hEqual, fun _ => rfl⟩
  · have hZero : q = 0 := by linarith
    exact ⟨by linarith, fun hSome => absurd hZero hSome⟩
  · have hZero : q = 0 := by linarith
    exact ⟨by linarith, fun hSome => absurd hZero hSome⟩
  · exact ⟨by linarith, fun _ => rfl⟩

end Binary

------------------------------------------------------------
-- Signs
------------------------------------------------------------

namespace Number

open Float.Model.UnpackedFloat

/- Numbers compare as what they are unpacked to. -/
theorem lt_iff_unpack
    (x y : Float) :
    x < y ↔ x.toModel.unpack.lt y.toModel.unpack = true := by
  change decide (x.toModel.lt y.toModel = true) = true ↔ _
  rw [decide_eq_true_iff]
  rfl

/- What is above zero is not below zero. -/
theorem not_neg_of_pos
    {x : Float}
    (hPos : 0.0 < x) :
    ¬ x < 0.0 := by
  have hZero : (0.0 : Float).toModel.unpack = .zero .positive :=
    rfl
  rw [lt_iff_unpack, hZero] at hPos ⊢
  generalize x.toModel.unpack = u at hPos ⊢
  cases u with
  | notANumber => cases hPos
  | infinity s => cases s <;> revert hPos <;> decide
  | zero s => cases hPos
  | finite s m e hMantissa =>
      cases s <;>
        simp [Float.Model.UnpackedFloat.lt,
          Float.Model.UnpackedFloat.compare] at hPos ⊢

/- A number other than zero is below zero by its sign. -/
theorem isNegative_eq_decide
    {x : Float}
    {s : Sign}
    {m : Nat}
    {e : Int}
    {hMantissa : 0 < m}
    (hUnpack : x.toModel.unpack = .finite s m e hMantissa) :
    Binary.isNegative s = decide (x < 0.0) := by
  have hZero : (0.0 : Float).toModel.unpack = .zero .positive :=
    rfl
  rw [Bool.eq_iff_iff, decide_eq_true_iff, lt_iff_unpack,
    hUnpack, hZero]
  cases s <;>
    simp [Binary.isNegative, Float.Model.UnpackedFloat.lt,
      Float.Model.UnpackedFloat.compare]

/- What is unpacked to a zero equals zero. -/
theorem beq_zero_of_unpack
    {x : Float}
    {s : Sign}
    (hUnpack : x.toModel.unpack = .zero s) :
    (x == 0.0) = true := by
  cases s with
  | positive =>
      rw [eq_of_unpack_eq (y := 0.0) (hUnpack.trans rfl)]
      decide
  | negative =>
      rw [eq_of_unpack_eq (y := -0.0) (hUnpack.trans rfl)]
      decide

/-
  The content of a finite number whose zero has no sign: the
  sign tells whether the number is below zero, and its value
  is that of the number.
-/
theorem exists_content
    {x : Float}
    (hFinite : x.isFinite = true) :
    ∃ m e,
      Binary.ofFloat (if x == 0.0 then 0.0 else x) =
          .finite (decide (x < 0.0)) m e ∧
        ∃ negative,
          Binary.ofFloat x = .finite negative m e ∧
            (m ≠ 0 → negative = decide (x < 0.0)) := by
  cases hZero : x == 0.0 with
  | true =>
      refine ⟨0, -1074, ?_⟩
      rw [Float.beq_iff_ne_nan_and_eq] at hZero
      rcases hZero with ⟨_, _, rfl | ⟨rfl, _⟩ | ⟨rfl, _⟩⟩
      · exact ⟨by decide, false, by decide,
          fun hNonzero => absurd rfl hNonzero⟩
      · exact ⟨by decide, false, by decide,
          fun hNonzero => absurd rfl hNonzero⟩
      · exact ⟨by decide, true, by decide,
          fun hNonzero => absurd rfl hNonzero⟩
  | false =>
      rw [← Binary.isFinite_ofFloat, Binary.ofFloat_eq]
        at hFinite
      rw [if_neg Bool.false_ne_true, Binary.ofFloat_eq]
      cases hUnpack : x.toModel.unpack with
      | notANumber =>
          rw [hUnpack] at hFinite
          cases hFinite
      | infinity s =>
          rw [hUnpack] at hFinite
          cases hFinite
      | zero s =>
          rw [beq_zero_of_unpack hUnpack] at hZero
          cases hZero
      | finite s m e hMantissa =>
          have hSign := isNegative_eq_decide hUnpack
          rw [Binary.ofUnpacked, hSign]
          exact ⟨m, e, rfl, _, rfl, fun _ => rfl⟩

end Number

end Lindenmayer
