import Mathlib.Data.List.DropRight
import Lindenmayer.Drawing.Svg
import Lindenmayer.Proofs.Number.Finite

/-
  The texts of numbers with a fixed number of places.

  A finite number is written as a plain decimal numeral: its
  digits before the point, and as many places as there are
  without zeros at their end.  All other numbers are written
  as words.

  Key definitions include:
    * `Decimal.isNumeral`
    * `Decimal.withPoint`

  Correctness is proven by:
    * `Svg.trimZeros_point`
    * `Svg.toList_number_of_finite`
    * `Svg.isNumeral_number`
    * `Svg.number_of_not_finite`
-/

namespace Lindenmayer

------------------------------------------------------------
-- Numerals
------------------------------------------------------------

namespace Decimal

/- Whether there are digits and nothing but digits. -/
def areDigits
    (cs : List Char) : Bool :=
  !cs.isEmpty && cs.all Char.isDigit

/- Whether a text is a plain numeral without a sign. -/
def isUnsigned
    (cs : List Char) : Bool :=
  areDigits (cs.takeWhile Char.isDigit) &&
    match cs.dropWhile Char.isDigit with
    | [] => true
    | '.' :: places => areDigits places
    | _ => false

/-
  Whether a text is a plain decimal numeral: digits, perhaps a
  point and more digits, and perhaps a minus sign in front.
-/
def isNumeral : List Char → Bool
  | '-' :: cs => isUnsigned cs
  | cs => isUnsigned cs

/- Digits before a point, and places unless there are none. -/
def withPoint
    (whole places : List Char) : List Char :=
  if places = [] then whole else whole ++ '.' :: places

theorem isDigit_digits
    {n : Nat}
    {c : Char}
    (hMember : c ∈ digits n) :
    c.isDigit = true :=
  Nat.isDigit_of_mem_toDigits (by decide) (by decide) hMember

theorem isDigit_padded
    {width n : Nat}
    {c : Char}
    (hMember : c ∈ padded width n) :
    c.isDigit = true := by
  rcases List.mem_append.mp hMember with hZero | hDigit
  · rw [List.eq_of_mem_replicate hZero]
    rfl
  · exact isDigit_digits hDigit

theorem isDigit_trimmedPlaces
    {width n : Nat}
    {c : Char}
    (hMember :
      c ∈ (padded width n).rdropWhile (· == '0')) :
    c.isDigit = true :=
  isDigit_padded ((List.rdropWhile_prefix _ _).subset hMember)

@[simp] theorem digits_ne_nil
    (n : Nat) :
    digits n ≠ [] :=
  Nat.toDigits_ne_nil

theorem areDigits_of_forall
    {cs : List Char}
    (hSome : cs ≠ [])
    (hDigits : ∀ c ∈ cs, c.isDigit = true) :
    areDigits cs = true := by
  simpa [areDigits, hSome] using hDigits

theorem withPoint_append
    (cs whole places : List Char) :
    withPoint (cs ++ whole) places =
      cs ++ withPoint whole places := by
  unfold withPoint
  split
  · rfl
  · exact List.append_assoc _ _ _

theorem withPoint_ne_nil
    {whole : List Char}
    (hSome : whole ≠ [])
    (places : List Char) :
    withPoint whole places ≠ [] := by
  unfold withPoint
  split <;> simp [hSome]

/- The digits before the point are the first digits. -/
theorem takeWhile_withPoint
    {whole : List Char}
    (hWhole : ∀ c ∈ whole, c.isDigit = true)
    (places : List Char) :
    (withPoint whole places).takeWhile Char.isDigit =
      whole := by
  unfold withPoint
  split
  · exact List.takeWhile_eq_self_iff.mpr hWhole
  · rw [List.takeWhile_append_of_pos hWhole]
    simp

theorem dropWhile_withPoint
    {whole : List Char}
    (hWhole : ∀ c ∈ whole, c.isDigit = true)
    (places : List Char) :
    (withPoint whole places).dropWhile Char.isDigit =
      if places = [] then [] else '.' :: places := by
  unfold withPoint
  split
  · exact List.dropWhile_eq_nil_iff.mpr hWhole
  · rw [List.dropWhile_append_of_pos hWhole]
    simp

/- Digits do not begin with a minus sign. -/
theorem withPoint_ne_dash
    {whole : List Char}
    (hSome : whole ≠ [])
    (hWhole : ∀ c ∈ whole, c.isDigit = true)
    (places cs : List Char) :
    withPoint whole places ≠ '-' :: cs := by
  intro hDash
  cases whole with
  | nil => exact hSome rfl
  | cons d ds =>
      have hHead : d = '-' := by
        unfold withPoint at hDash
        split at hDash <;> exact (List.cons.inj hDash).1
      have hDigit := hWhole d List.mem_cons_self
      rw [hHead] at hDigit
      exact absurd hDigit (by decide)

theorem isUnsigned_withPoint
    {whole places : List Char}
    (hSome : whole ≠ [])
    (hWhole : ∀ c ∈ whole, c.isDigit = true)
    (hPlaces : ∀ c ∈ places, c.isDigit = true) :
    isUnsigned (withPoint whole places) = true := by
  rw [isUnsigned, takeWhile_withPoint hWhole,
    dropWhile_withPoint hWhole,
    areDigits_of_forall hSome hWhole]
  by_cases hNone : places = []
  · rw [if_pos hNone]
    rfl
  · rw [if_neg hNone]
    exact areDigits_of_forall hNone hPlaces

/- So are they after a sign. -/
theorem isNumeral_withPoint
    (negative : Bool)
    {whole places : List Char}
    (hSome : whole ≠ [])
    (hWhole : ∀ c ∈ whole, c.isDigit = true)
    (hPlaces : ∀ c ∈ places, c.isDigit = true) :
    isNumeral (sign negative ++ withPoint whole places) =
      true := by
  have hUnsigned :=
    isUnsigned_withPoint hSome hWhole hPlaces
  cases negative with
  | true => exact hUnsigned
  | false =>
      rw [sign, if_neg Bool.false_ne_true, List.nil_append,
        isNumeral]
      · exact hUnsigned
      · exact withPoint_ne_dash hSome hWhole places

/- A numeral consists of digits, a sign and a point. -/
theorem mem_of_isNumeral
    {cs : List Char}
    (hNumeral : isNumeral cs = true)
    {c : Char}
    (hMember : c ∈ cs) :
    c.isDigit = true ∨ c = '-' ∨ c = '.' := by
  have hUnsigned :
      ∀ ds, isUnsigned ds = true → c ∈ ds →
        c.isDigit = true ∨ c = '-' ∨ c = '.' := by
    intro ds hUnsigned hMember
    rw [isUnsigned, Bool.and_eq_true] at hUnsigned
    rw [← List.takeWhile_append_dropWhile
      (p := Char.isDigit) (l := ds)] at hMember
    rcases List.mem_append.mp hMember with hWhole | hRest
    · exact .inl (List.mem_takeWhile_imp hWhole)
    · have hPlaces := hUnsigned.2
      split at hPlaces
      · rename_i hEnd
        rw [hEnd] at hRest
        cases hRest
      · rename_i places hPoint
        rw [hPoint] at hRest
        rw [areDigits, Bool.and_eq_true, List.all_eq_true]
          at hPlaces
        rcases List.mem_cons.mp hRest with hPoint | hDigit
        · exact .inr (.inr hPoint)
        · exact .inl (hPlaces.2 c hDigit)
      · cases hPlaces
  unfold isNumeral at hNumeral
  split at hNumeral
  · rcases List.mem_cons.mp hMember with hDash | hLater
    · exact .inr (.inl hDash)
    · exact hUnsigned _ hNumeral hLater
  · exact hUnsigned _ hNumeral hMember

end Decimal

------------------------------------------------------------
-- Numbers
------------------------------------------------------------

namespace Svg

open Decimal
open scoped Arithmetic

/-
  The zeros at the end of the places are trimmed, and the point
  when nothing follows it.
-/
theorem trimZeros_point
    {whole places : List Char}
    (hWhole : '.' ∉ whole)
    (hPlaces : '.' ∉ places) :
    trimZeros (whole ++ '.' :: places) =
      withPoint whole (places.rdropWhile (· == '0')) := by
  have hReverse :
      (whole ++ '.' :: places).reverse =
        places.reverse ++ '.' :: whole.reverse := by
    simp
  rw [trimZeros, hReverse, List.dropWhile_append,
    List.rdropWhile]
  generalize hTrimmed : places.reverse.dropWhile (· == '0') = ps
  cases ps with
  | nil =>
      have hEnd :
          whole.reverse.dropWhile (· == '.') =
            whole.reverse := by
        rw [List.dropWhile_eq_self_iff]
        intro hLength hPoint
        apply hWhole
        rw [← List.mem_reverse, ← eq_of_beq hPoint]
        exact List.getElem_mem hLength
      simp [withPoint, hEnd]
  | cons c ps =>
      have hMember : c ∈ places.reverse := by
        have hSuffix :=
          List.dropWhile_suffix (l := places.reverse)
            (· == '0')
        rw [hTrimmed] at hSuffix
        exact hSuffix.subset List.mem_cons_self
      have hPoint : c ≠ '.' := by
        rintro rfl
        exact hPlaces (List.mem_reverse.mp hMember)
      simp [withPoint, hPoint]

/- The number that is written for a number: no zero has a sign. -/
theorem isFinite_unsigned_zero
    (x : Float) :
    (if x == 0.0 then 0.0 else x).isFinite = x.isFinite := by
  split
  · rename_i hZero
    rw [Float.beq_iff_ne_nan_and_eq] at hZero
    rcases hZero with ⟨_, _, rfl | ⟨rfl, _⟩ | ⟨rfl, _⟩⟩ <;>
      rfl
  · rfl

/- What is written of a finite number. -/
theorem toList_number_of_finite
    (precision : Nat)
    {x : Float}
    {negative : Bool}
    {m : Nat}
    {e : Int}
    (hFinite :
      Binary.ofFloat (if x == 0.0 then 0.0 else x) =
        .finite negative m e) :
    (number precision x).toList =
      sign negative ++
        withPoint
          (digits (scaled precision m e / 10 ^ precision))
          ((padded precision
            (scaled precision m e % 10 ^ precision)).rdropWhile
              (· == '0')) := by
  have hSign : '.' ∉ sign negative := by
    cases negative <;> decide
  have hDigits (n : Nat) : '.' ∉ digits n :=
    fun hMember => absurd (isDigit_digits hMember) (by decide)
  have hPadded (n : Nat) : '.' ∉ padded precision n :=
    fun hMember => absurd (isDigit_padded hMember) (by decide)
  rw [number]
  simp only [fixed, hFinite, fixedBinary]
  generalize scaled precision m e = n
  unfold places
  split
  · rename_i hZero
    have hNoPlaces : (padded 0 0).rdropWhile (· == '0') = [] :=
      by decide
    simp [hZero, hSign, hDigits, withPoint, Nat.mod_one,
      hNoPlaces]
  · have hWhole :
        '.' ∉ sign negative ++ digits (n / 10 ^ precision) := by
      simp [hSign, hDigits]
    have hTrim :=
      trimZeros_point hWhole (hPadded (n % 10 ^ precision))
    have hSome :=
      withPoint_ne_nil (digits_ne_nil (n / 10 ^ precision))
        ((padded precision (n % 10 ^ precision)).rdropWhile
          (· == '0'))
    rw [List.append_assoc, withPoint_append] at hTrim
    simp [hTrim, hSome]

/- What is not finite is written as a word. -/
theorem number_of_not_finite
    (precision : Nat)
    {x : Float}
    (hNotFinite : x.isFinite = false) :
    x.isNaN = true ∧ number precision x = "nan" ∨
      x.isNaN = false ∧
        (number precision x = "inf" ∨
          number precision x = "-inf") := by
  have hNotZero : (x == 0.0) = false := by
    rw [Bool.eq_false_iff]
    intro hZero
    have hFinite := isFinite_unsigned_zero x
    rw [if_pos hZero, hNotFinite] at hFinite
    exact absurd hFinite (by decide)
  rw [number, hNotZero, if_neg Bool.false_ne_true, fixed,
    ← Binary.isNaN_ofFloat]
  rw [← Binary.isFinite_ofFloat] at hNotFinite
  cases hContent : Binary.ofFloat x with
  | nan => exact .inl ⟨rfl, rfl⟩
  | infinite negative =>
      cases negative with
      | false => exact .inr ⟨rfl, .inl rfl⟩
      | true => exact .inr ⟨rfl, .inr rfl⟩
  | finite negative m e =>
      rw [hContent] at hNotFinite
      cases hNotFinite

/- The text of a number is a numeral when it is finite. -/
@[simp] theorem isNumeral_number
    (precision : Nat)
    (x : Float) :
    isNumeral (number precision x).toList = x.isFinite := by
  cases hFinite : x.isFinite with
  | false =>
      rcases number_of_not_finite precision hFinite with
        ⟨_, hText⟩ | ⟨_, hText | hText⟩ <;>
        rw [hText] <;> decide
  | true =>
      rw [← isFinite_unsigned_zero, ← Binary.isFinite_ofFloat]
        at hFinite
      cases hContent :
          Binary.ofFloat (if x == 0.0 then 0.0 else x) with
      | nan =>
          rw [hContent] at hFinite
          cases hFinite
      | infinite negative =>
          rw [hContent] at hFinite
          cases hFinite
      | finite negative m e =>
          rw [toList_number_of_finite precision hContent]
          apply isNumeral_withPoint
          · exact digits_ne_nil _
          · exact fun c => isDigit_digits
          · exact fun c => isDigit_trimmedPlaces

/-
  The text of a number consists of letters and digits, a sign
  and a point.
-/
theorem mem_number
    {precision : Nat}
    {x : Float}
    {c : Char}
    (hMember : c ∈ (number precision x).toList) :
    c.isAlphanum = true ∨ c = '-' ∨ c = '.' := by
  cases hFinite : x.isFinite with
  | true =>
      rw [← isNumeral_number precision] at hFinite
      rcases mem_of_isNumeral hFinite hMember with
        hDigit | hOther
      · exact .inl (by simp [Char.isAlphanum, hDigit])
      · exact .inr hOther
  | false =>
      rcases number_of_not_finite precision hFinite with
        ⟨_, hText⟩ | ⟨_, hText | hText⟩ <;>
        simp only [hText] at hMember <;>
        fin_cases hMember <;> decide

end Svg

end Lindenmayer
