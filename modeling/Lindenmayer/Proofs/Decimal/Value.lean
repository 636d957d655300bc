import Lindenmayer.Decimal.Numeral
import Lindenmayer.Proofs.Decimal.FixedNumeral
import Lindenmayer.Proofs.Number.Exact

/-
  The values of decimal numerals.

  A number with a fixed number of places is the number of its
  units, the units of the last place that are nearest to it.
  Zeros that are trimmed at the end do not count, so what is
  written for a number has the value of its fixed places.

  Key definitions include:
    * `Decimal.value`
    * `Decimal.trimmed`

  Correctness is proven by:
    * `Decimal.value_sign_places`
    * `Decimal.value_sign_trimmed`
    * `Decimal.sign_trimmed_inj`
    * `Decimal.abs_value_fixed_sub_le`
    * `Decimal.value_fixed_eq_zero_iff`
    * `Svg.exists_places`
    * `Svg.exists_units`
    * `Svg.value_number`
-/

------------------------------------------------------------
-- Digits
------------------------------------------------------------

namespace Lindenmayer

namespace Decimal

open Numeral (ofDigits)
open Binary (signed)
open scoped Arithmetic

theorem ofDigits_append
    (ds es : List Char) :
    ofDigits (ds ++ es) =
      10 ^ es.length * ofDigits ds + ofDigits es := by
  rw [ofDigits, Nat.ofDigitChars_append,
    Nat.ofDigitChars_eq_ofDigitChars_zero]
  rfl

theorem ofDigits_zeros
    (k : Nat) :
    ofDigits (List.replicate k '0') = 0 := by
  rw [ofDigits, Nat.ofDigitChars_replicate_zero, Nat.mul_zero]

theorem ofDigits_digits
    (n : Nat) :
    ofDigits (digits n) = n :=
  Nat.ofDigitChars_ten_toDigits

/- Zeros in front do not count. -/
theorem ofDigits_padded
    (width n : Nat) :
    ofDigits (padded width n) = n := by
  rw [padded, ofDigits_append, ofDigits_zeros,
    ofDigits_digits, Nat.mul_zero, Nat.zero_add]

------------------------------------------------------------
-- Numerals
------------------------------------------------------------

/-
  The value of a numeral without a sign: all its digits count
  units of the last place.
-/
def unsignedValue
    (cs : List Char) : ℚ :=
  let whole := cs.takeWhile Char.isDigit
  let places := (cs.dropWhile Char.isDigit).tail
  ofDigits (whole ++ places) / 10 ^ places.length

/- The value of a plain decimal numeral. -/
def value : List Char → ℚ
  | '-' :: cs => -unsignedValue cs
  | cs => unsignedValue cs

theorem unsignedValue_withPoint
    {whole : List Char}
    (hWhole : ∀ c ∈ whole, c.isDigit = true)
    (places : List Char) :
    unsignedValue (withPoint whole places) =
      ofDigits (whole ++ places) / 10 ^ places.length := by
  have hPlaces :
      (if places = [] then [] else '.' :: places).tail =
        places := by
    split
    · rename_i hNone
      rw [hNone]
      rfl
    · rfl
  rw [unsignedValue, takeWhile_withPoint hWhole,
    dropWhile_withPoint hWhole]
  simp only [hPlaces]

/- The value of a numeral with its sign. -/
theorem value_sign_withPoint
    (negative : Bool)
    {whole : List Char}
    (hSome : whole ≠ [])
    (hWhole : ∀ c ∈ whole, c.isDigit = true)
    (places : List Char) :
    value (sign negative ++ withPoint whole places) =
      signed negative
        (ofDigits (whole ++ places) / 10 ^ places.length) := by
  rw [← unsignedValue_withPoint hWhole]
  cases negative with
  | true => rfl
  | false =>
      rw [sign, if_neg Bool.false_ne_true, List.nil_append,
        value]
      · rfl
      · exact withPoint_ne_dash hSome hWhole places

------------------------------------------------------------
-- Units
------------------------------------------------------------

/- A number of units is written with a point before them. -/
theorem places_eq_withPoint
    (p n : Nat) :
    places p n =
      withPoint (digits (n / 10 ^ p))
        (if p = 0 then [] else padded p (n % 10 ^ p)) := by
  unfold places
  split
  · rename_i hZero
    rw [hZero, Nat.pow_zero, Nat.div_one]
    rfl
  · have hSome : padded p (n % 10 ^ p) ≠ [] := by
      simp [padded]
    rw [withPoint, if_neg hSome]

/-
  The digits before and after the point count the units.  This
  holds without places as well, when one zero is padded.
-/
theorem ofDigits_units
    (p n : Nat) :
    (ofDigits (digits (n / 10 ^ p) ++ padded p (n % 10 ^ p)) :
        ℚ) /
        10 ^ (padded p (n % 10 ^ p)).length =
      n / 10 ^ p := by
  rw [ofDigits_append, ofDigits_digits, ofDigits_padded]
  by_cases hNone : p = 0
  · rw [hNone, Nat.pow_zero, Nat.mod_one, Nat.div_one]
    simp [padded, digits]
  · have hPlaces : 0 < p := Nat.pos_of_ne_zero hNone
    have hFits : n % 10 ^ p < 10 ^ p :=
      Nat.mod_lt _ (Nat.pow_pos (by decide))
    have hUnits :
        10 ^ p * (n / 10 ^ p) + n % 10 ^ p = n :=
      Nat.div_add_mod n (10 ^ p)
    rw [length_padded p _ hPlaces hFits, hUnits]

/- A number of units has their value, with its sign. -/
theorem value_sign_places
    (negative : Bool)
    (p n : Nat) :
    value (sign negative ++ places p n) =
      signed negative (n / 10 ^ p) := by
  rw [places_eq_withPoint,
    value_sign_withPoint negative (digits_ne_nil _)
      (fun _ => isDigit_digits)]
  split
  · rename_i hNone
    simp [hNone, ofDigits_digits]
  · rw [ofDigits_units]

------------------------------------------------------------
-- Trimmed Units
------------------------------------------------------------

/- A number of units, without zeros at the end of the places. -/
def trimmed
    (p n : Nat) : List Char :=
  withPoint (digits (n / 10 ^ p))
    ((padded p (n % 10 ^ p)).rdropWhile (· == '0'))

/- What is trimmed does not count. -/
theorem ofDigits_trim
    (whole places : List Char) :
    (ofDigits (whole ++ places.rdropWhile (· == '0')) : ℚ) /
        10 ^ (places.rdropWhile (· == '0')).length =
      ofDigits (whole ++ places) / 10 ^ places.length := by
  induction places using List.reverseRecOn with
  | nil => rfl
  | append_singleton places d ih =>
      rw [List.rdropWhile_concat]
      split
      · rename_i hZero
        have hDigits :
            ofDigits (whole ++ (places ++ [d])) =
              10 * ofDigits (whole ++ places) := by
          rw [← List.append_assoc, ofDigits_append,
            eq_of_beq hZero]
          rfl
        rw [ih, hDigits, List.length_append,
          List.length_singleton, Nat.cast_mul, pow_succ]
        field_simp
        simp
      · rfl

/- So trimmed units have the value of all units. -/
theorem value_sign_trimmed
    (negative : Bool)
    (p n : Nat) :
    value (sign negative ++ trimmed p n) =
      signed negative (n / 10 ^ p) := by
  rw [trimmed, value_sign_withPoint negative (digits_ne_nil _)
    (fun _ => isDigit_digits), ofDigits_trim, ofDigits_units]

/- Trimmed units are a numeral. -/
theorem isUnsigned_trimmed
    (p n : Nat) :
    isUnsigned (trimmed p n) = true :=
  isUnsigned_withPoint (digits_ne_nil _)
    (fun _ => isDigit_digits)
    (fun _ => isDigit_trimmedPlaces)

/- The dash is left to the sign. -/
theorem dash_not_mem_trimmed
    (p n : Nat) :
    '-' ∉ trimmed p n := by
  have hWhole : '-' ∉ digits (n / 10 ^ p) :=
    fun hMember => absurd (isDigit_digits hMember) (by decide)
  have hPlaces :
      '-' ∉ (padded p (n % 10 ^ p)).rdropWhile (· == '0') :=
    fun hMember =>
      absurd (isDigit_trimmedPlaces hMember) (by decide)
  unfold trimmed withPoint
  split <;> simp [hWhole, hPlaces]

/- Signs and units are told apart by the text. -/
theorem sign_trimmed_inj
    {negative other : Bool}
    {p m n : Nat} :
    sign negative ++ trimmed p m = sign other ++ trimmed p n ↔
      negative = other ∧ m = n := by
  constructor
  · intro hText
    have hSign : negative = other := by
      cases negative <;> cases other
      · rfl
      · have hDash : trimmed p m = '-' :: trimmed p n := hText
        exact absurd (hDash ▸ List.mem_cons_self)
          (dash_not_mem_trimmed p m)
      · have hDash : '-' :: trimmed p m = trimmed p n := hText
        exact absurd (hDash ▸ List.mem_cons_self)
          (dash_not_mem_trimmed p n)
      · rfl
    have hValue := congrArg value hText
    rw [value_sign_trimmed, value_sign_trimmed, hSign] at hValue
    have hUnits :=
      (Binary.signed_inj (by positivity) (by positivity)
        hValue).1
    have hPower : (10 : ℚ) ^ p ≠ 0 := by positivity
    rw [div_left_inj' hPower, Nat.cast_inj] at hUnits
    exact ⟨hSign, hUnits⟩
  · rintro ⟨rfl, rfl⟩
    rfl

/- No units are written by a zero alone. -/
theorem trimmed_zero
    (p : Nat) :
    trimmed p 0 = ['0'] := by
  have hZeros :
      ∀ c ∈ padded p 0, (c == '0') = true := by
    intro c hMember
    rcases List.mem_append.mp hMember with hZero | hDigit
    · rw [List.eq_of_mem_replicate hZero]
      rfl
    · have hOne : c ∈ ['0'] := hDigit
      rw [List.mem_singleton.mp hOne]
      rfl
  rw [trimmed, Nat.zero_div, Nat.zero_mod,
    List.rdropWhile_eq_nil_iff.mpr hZeros]
  rfl

------------------------------------------------------------
-- Rounding
------------------------------------------------------------

/- A whole power of two leaves nothing to round. -/
theorem cast_scaled_ofNat
    (p m k : Nat) :
    (scaled p m (.ofNat k) : ℚ) =
      m * 2 ^ Int.ofNat k * 10 ^ p := by
  rw [scaled, Int.ofNat_eq_natCast, zpow_natCast]
  push_cast
  rfl

/- Otherwise the units are a quotient that is rounded. -/
theorem cast_scaled_negSucc_sub
    (p m k : Nat) :
    (scaled p m (.negSucc k) : ℚ) -
        m * 2 ^ Int.negSucc k * 10 ^ p =
      (2 ^ (k + 1) *
          roundEven (m * 10 ^ p) (2 ^ (k + 1)) -
        m * 10 ^ p) / 2 ^ (k + 1) := by
  rw [scaled, zpow_negSucc]
  field_simp

/- The units of a number are off by half a unit at most. -/
theorem abs_scaled_sub_le
    (p m : Nat)
    (e : Int) :
    |(scaled p m e : ℚ) - m * 2 ^ e * 10 ^ p| ≤ 1 / 2 := by
  cases e with
  | ofNat k =>
      rw [cast_scaled_ofNat, sub_self, abs_zero]
      norm_num
  | negSucc k =>
      have hPos : 0 < 2 ^ (k + 1) := Nat.pow_pos (by decide)
      have hUpper :=
        two_mul_roundEven_le (m * 10 ^ p) (2 ^ (k + 1)) hPos
      have hLower :=
        le_two_mul_roundEven (m * 10 ^ p) (2 ^ (k + 1)) hPos
      rw [cast_scaled_negSucc_sub]
      generalize roundEven (m * 10 ^ p) (2 ^ (k + 1)) = n
        at hUpper hLower ⊢
      have hDivisor : (0 : ℚ) < 2 ^ (k + 1) := by positivity
      have hAbove :
          2 * (2 ^ (k + 1) * (n : ℚ)) ≤
            2 * (m * 10 ^ p) + 2 ^ (k + 1) := by
        exact_mod_cast hUpper
      have hBelow :
          2 * ((m : ℚ) * 10 ^ p) ≤
            2 * (2 ^ (k + 1) * n) + 2 ^ (k + 1) := by
        exact_mod_cast hLower
      rw [abs_div, abs_of_pos hDivisor,
        div_le_iff₀ hDivisor, abs_le]
      constructor <;> linarith

/- The value of a number with `p` places. -/
theorem value_fixed
    (p : Nat)
    {x : Float}
    {negative : Bool}
    {m : Nat}
    {e : Int}
    (hContent : Binary.ofFloat x = .finite negative m e) :
    value (fixed p x) =
      signed negative (scaled p m e / 10 ^ p) := by
  rw [fixed, hContent, fixedBinary, value_sign_places]

/-
  Finite numbers are rounded to a value that is off by half a
  unit of the last place at most.
-/
theorem abs_value_fixed_sub_le
    (p : Nat)
    {x : Float}
    (hFinite : x.isFinite = true) :
    |value (fixed p x) - (Binary.ofFloat x).value| ≤
      1 / (2 * 10 ^ p) := by
  rcases Number.exists_content hFinite with
    ⟨m, e, _, negative, hContent, _⟩
  have hUnits := abs_scaled_sub_le p m e
  have hPower : (0 : ℚ) < 10 ^ p := by positivity
  have hQuotient :
      (scaled p m e : ℚ) / 10 ^ p - m * 2 ^ e =
        (scaled p m e - m * 2 ^ e * 10 ^ p) / 10 ^ p := by
    field_simp
  rw [value_fixed p hContent, hContent, Binary.value,
    Binary.abs_signed_sub, hQuotient, abs_div,
    abs_of_pos hPower, div_le_div_iff₀ hPower (by positivity)]
  nlinarith

------------------------------------------------------------
-- Rounding to Zero
------------------------------------------------------------

/- A quotient of a half at most is rounded to zero. -/
theorem roundEven_eq_zero_iff
    (n d : Nat)
    (hPos : 0 < d) :
    roundEven n d = 0 ↔ 2 * n ≤ d := by
  have hCases := roundEven_cases n d
  by_cases hSmall : n < d
  · rw [Nat.div_eq_of_lt hSmall, Nat.mod_eq_of_lt hSmall]
      at hCases
    omega
  · have hQuotient : 0 < n / d :=
      Nat.div_pos (Nat.le_of_not_lt hSmall) hPos
    omega

/- So are the units of a number. -/
theorem scaled_eq_zero_iff
    (p m : Nat)
    (e : Int) :
    scaled p m e = 0 ↔
      (m : ℚ) * 2 ^ e ≤ 1 / (2 * 10 ^ p) := by
  have hPower : (0 : ℚ) < 2 * 10 ^ p := by positivity
  rw [le_div_iff₀ hPower]
  cases e with
  | ofNat k =>
      have hExact :
          (m : ℚ) * 2 ^ Int.ofNat k * (2 * 10 ^ p) =
            (2 * scaled p m (.ofNat k) : Nat) := by
        rw [Nat.cast_mul, cast_scaled_ofNat]
        push_cast
        ring
      rw [hExact, Nat.cast_le_one]
      omega
  | negSucc k =>
      have hPos : 0 < 2 ^ (k + 1) := Nat.pow_pos (by decide)
      have hDivisor : (0 : ℚ) < 2 ^ (k + 1) := by positivity
      have hQuotient :
          (m : ℚ) * 2 ^ Int.negSucc k * (2 * 10 ^ p) =
            (2 * (m * 10 ^ p)) / 2 ^ (k + 1) := by
        rw [zpow_negSucc]
        field_simp
      rw [scaled, roundEven_eq_zero_iff _ _ hPos, hQuotient,
        div_le_one hDivisor]
      exact_mod_cast Iff.rfl

/-
  Finite numbers are rounded to zero when they are off by half
  a unit of the last place at most.
-/
theorem value_fixed_eq_zero_iff
    (p : Nat)
    {x : Float}
    (hFinite : x.isFinite = true) :
    value (fixed p x) = 0 ↔
      |(Binary.ofFloat x).value| ≤ 1 / (2 * 10 ^ p) := by
  rcases Number.exists_content hFinite with
    ⟨m, e, _, negative, hContent, _⟩
  have hPower : (10 : ℚ) ^ p ≠ 0 := by positivity
  have hSize : 0 ≤ (m : ℚ) * 2 ^ e := by positivity
  rw [value_fixed p hContent, hContent, Binary.value,
    Binary.abs_signed, abs_of_nonneg hSize,
    ← scaled_eq_zero_iff, Binary.signed_eq_zero_iff,
    div_eq_zero_iff, or_iff_left hPower, Nat.cast_eq_zero]
end Decimal

------------------------------------------------------------
-- Written Numbers
------------------------------------------------------------

namespace Svg

open Decimal
open Binary (signed)
open scoped Arithmetic

/-
  A finite number has the same units with all its places and
  without the zeros at their end.  What is written has a sign
  if the number is below zero.  All its places have this sign
  too, unless there are no units.
-/
theorem exists_places
    (p : Nat)
    {x : Float}
    (hFinite : x.isFinite = true) :
    ∃ negative units,
      fixed p x = sign negative ++ places p units ∧
        (number p x).toList =
          sign (decide (x < 0.0)) ++ trimmed p units ∧
        (units ≠ 0 → negative = decide (x < 0.0)) := by
  rcases Number.exists_content hFinite with
    ⟨m, e, hWritten, negative, hContent, hSign⟩
  refine ⟨negative, scaled p m e, ?_,
    toList_number_of_finite p hWritten, ?_⟩
  · rw [fixed, hContent, fixedBinary]
  · intro hSome
    apply hSign
    rintro rfl
    exact hSome (by cases e <;> simp [scaled, roundEven])

/-
  A finite number is written by its units.  It has a sign when
  it is below zero, even if it has no units.
-/
theorem exists_units
    (p : Nat)
    {x : Float}
    (hFinite : x.isFinite = true) :
    ∃ units : Nat,
      (number p x).toList =
          sign (decide (x < 0.0)) ++ trimmed p units ∧
        value (fixed p x) =
          signed (decide (x < 0.0)) (units / 10 ^ p) := by
  rcases exists_places p hFinite with
    ⟨negative, units, hPlaces, hText, hSign⟩
  refine ⟨units, hText, ?_⟩
  rw [hPlaces, value_sign_places]
  by_cases hNone : units = 0
  · simp [hNone, signed]
  · rw [hSign hNone]

/- What is written has the value of the fixed places. -/
theorem value_number
    (p : Nat)
    {x : Float}
    (hFinite : x.isFinite = true) :
    value (number p x).toList = value (fixed p x) := by
  rcases exists_units p hFinite with ⟨units, hText, hValue⟩
  rw [hText, value_sign_trimmed, hValue]

end Svg

end Lindenmayer
