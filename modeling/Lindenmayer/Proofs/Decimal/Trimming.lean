import Lindenmayer.Proofs.Decimal.Value

/-
  Trimmed numerals.

  A finite number is rounded to some places, a tie going to
  the even neighbour, and written with all of them.  Then the
  zeros at the end of the places are trimmed, and the point
  when no place is left.  This keeps the value, and it keeps
  the digits before the point, zeros at their end included.

  Key definitions include:
    * `Decimal.IsRounded`
    * `Decimal.wholePart`
    * `Decimal.IsTrimmed`
    * `Decimal.Trims`

  Correctness is proven by:
    * `Decimal.IsRounded.unique`
    * `Decimal.isRounded_fixed`
    * `Decimal.wholePart_sign_withPoint`
    * `Decimal.isTrimmed_sign_withPoint`
    * `Decimal.isTrimmed_sign_trimmed`
    * `Decimal.trims_sign_places`
    * `Svg.trimming_keeps_number`
-/

------------------------------------------------------------
-- Rounded Values
------------------------------------------------------------

namespace Lindenmayer

namespace Decimal

open Binary (signed)
open scoped Arithmetic

/-
  Whether a value is another one rounded to some places: it is
  the nearest number of units of the last place, and an even
  number of them if two are equally near.
-/
def IsRounded
    (p : Nat)
    (q r : ℚ) : Prop :=
  ∃ units : ℤ,
    r = units / 10 ^ p ∧
      |units - q * 10 ^ p| ≤ 1 / 2 ∧
      (|units - q * 10 ^ p| = 1 / 2 → Even units)

/-
  A value is rounded to one value only: the units of two would
  be neighbours, equally near and both even.
-/
theorem IsRounded.unique
    {p : Nat}
    {q r s : ℚ}
    (hFirst : IsRounded p q r)
    (hSecond : IsRounded p q s) :
    r = s := by
  rcases hFirst with ⟨k, rfl, hNearK, hEvenK⟩
  rcases hSecond with ⟨l, rfl, hNearL, hEvenL⟩
  suffices hUnits : k = l by rw [hUnits]
  by_contra hApart
  have hOne : (1 : ℚ) ≤ |(k : ℚ) - l| := by
    exact_mod_cast Int.one_le_abs (sub_ne_zero.mpr hApart)
  have hSum :
      |(k : ℚ) - l| ≤
        |k - q * 10 ^ p| + |l - q * 10 ^ p| := by
    rw [abs_sub_comm (l : ℚ)]
    exact abs_sub_le _ _ _
  have hTieK : |(k : ℚ) - q * 10 ^ p| = 1 / 2 := by linarith
  have hTieL : |(l : ℚ) - q * 10 ^ p| = 1 / 2 := by linarith
  have hNext : |(k : ℚ) - l| = 1 := by linarith
  have hEven : Even |k - l| :=
    even_abs.mpr ((hEvenK hTieK).sub (hEvenL hTieL))
  have hUnit : |k - l| = 1 := by exact_mod_cast hNext
  rw [hUnit] at hEven
  exact absurd hEven (by decide)

/- Values are rounded in the same way below zero. -/
theorem isRounded_signed
    {p : Nat}
    {q r : ℚ}
    (negative : Bool)
    (hRounded : IsRounded p q r) :
    IsRounded p (signed negative q) (signed negative r) := by
  cases negative with
  | false => exact hRounded
  | true =>
      rcases hRounded with ⟨units, rfl, hNear, hEven⟩
      have hSame :
          |((-units : ℤ) : ℚ) - -q * 10 ^ p| =
            |units - q * 10 ^ p| := by
        rw [Int.cast_neg, neg_mul, ← neg_sub', abs_neg]
      refine ⟨-units, ?_, ?_, ?_⟩
      · rw [Int.cast_neg, neg_div]
        rfl
      · exact hSame.trans_le hNear
      · intro hTie
        exact (hEven (hSame.symm.trans hTie)).neg

/- A quotient with two nearest neighbours becomes the even one. -/
theorem even_roundEven_of_tie
    (n d : Nat)
    (hPos : 0 < d)
    (hTie :
      2 * (d * roundEven n d) = 2 * n + d ∨
        2 * n = 2 * (d * roundEven n d) + d) :
    Even (roundEven n d) := by
  have hDiv := Nat.div_add_mod n d
  have hMod := Nat.mod_lt n hPos
  rw [Nat.even_iff]
  rcases roundEven_cases n d with
    ⟨hDown, hNear⟩ | ⟨hUp, hNear⟩
  · rw [hDown] at hTie ⊢
    omega
  · rw [hUp, Nat.mul_add] at hTie
    omega

/- So do the units of a number between two of them. -/
theorem even_scaled_of_tie
    (p m : Nat)
    (e : Int)
    (hTie :
      |(scaled p m e : ℚ) - m * 2 ^ e * 10 ^ p| = 1 / 2) :
    Even (scaled p m e) := by
  cases e with
  | ofNat k =>
      rw [cast_scaled_ofNat, sub_self, abs_zero] at hTie
      norm_num at hTie
  | negSucc k =>
      have hPos : 0 < 2 ^ (k + 1) := Nat.pow_pos (by decide)
      have hDivisor : (0 : ℚ) < 2 ^ (k + 1) := by positivity
      rw [cast_scaled_negSucc_sub, abs_div,
        abs_of_pos hDivisor, div_eq_iff hDivisor.ne'] at hTie
      apply even_roundEven_of_tie _ _ hPos
      generalize roundEven (m * 10 ^ p) (2 ^ (k + 1)) = n
        at hTie ⊢
      rcases eq_or_eq_neg_of_abs_eq hTie with hAbove | hBelow
      · left
        have hTwice :
            2 * (2 ^ (k + 1) * (n : ℚ)) =
              2 * (m * 10 ^ p) + 2 ^ (k + 1) := by
          linarith
        exact_mod_cast hTwice
      · right
        have hTwice :
            2 * ((m : ℚ) * 10 ^ p) =
              2 * (2 ^ (k + 1) * n) + 2 ^ (k + 1) := by
          linarith
        exact_mod_cast hTwice

/- All places of a finite number are those of its rounded value. -/
theorem isRounded_fixed
    (p : Nat)
    {x : Float}
    (hFinite : x.isFinite = true) :
    IsRounded p (Binary.ofFloat x).value
      (value (fixed p x)) := by
  rcases Number.exists_content hFinite with
    ⟨m, e, _, negative, hContent, _⟩
  rw [value_fixed p hContent, hContent, Binary.value]
  apply isRounded_signed
  refine ⟨scaled p m e, rfl, abs_scaled_sub_le p m e, ?_⟩
  intro hTie
  exact_mod_cast even_scaled_of_tie p m e hTie

------------------------------------------------------------
-- Digits before the Point
------------------------------------------------------------

/- The digits before the point of a plain decimal numeral. -/
def wholePart : List Char → List Char
  | '-' :: cs => cs.takeWhile Char.isDigit
  | cs => cs.takeWhile Char.isDigit

theorem wholePart_sign_withPoint
    (negative : Bool)
    {whole : List Char}
    (hSome : whole ≠ [])
    (hWhole : ∀ c ∈ whole, c.isDigit = true)
    (places : List Char) :
    wholePart (sign negative ++ withPoint whole places) =
      whole := by
  have hDigits := takeWhile_withPoint hWhole places
  cases negative with
  | true => exact hDigits
  | false =>
      rw [sign, if_neg Bool.false_ne_true, List.nil_append,
        wholePart]
      · exact hDigits
      · exact withPoint_ne_dash hSome hWhole places

------------------------------------------------------------
-- Ends of Numerals
------------------------------------------------------------

/-
  Whether nothing can be trimmed: a numeral ends neither in a
  point nor in a zero after a point.
-/
structure IsTrimmed
    (cs : List Char) : Prop where
  point : cs.getLast? ≠ some '.'
  zero : '.' ∈ cs → cs.getLast? ≠ some '0'

/-
  Only the end of the places matters, and if there are none
  then there is no point either.
-/
theorem isTrimmed_sign_withPoint
    (negative : Bool)
    {whole places : List Char}
    (hWhole : ∀ c ∈ whole, c.isDigit = true)
    (hPlaces : ∀ c ∈ places, c.isDigit = true)
    (hLast : places.getLast? ≠ some '0') :
    IsTrimmed (sign negative ++ withPoint whole places) := by
  have hPoint {cs : List Char}
      (hDigits : ∀ c ∈ cs, c.isDigit = true) : '.' ∉ cs :=
    fun hMember => absurd (hDigits _ hMember) (by decide)
  rcases List.eq_nil_or_concat' places with
    rfl | ⟨before, last, rfl⟩
  · have hNone : '.' ∉ sign negative ++ whole := by
      rw [List.mem_append, not_or]
      exact ⟨by cases negative <;> decide, hPoint hWhole⟩
    rw [withPoint, if_pos rfl]
    constructor
    case point =>
      exact fun hEnd => hNone (List.mem_of_getLast? hEnd)
    case zero => exact fun hMember => absurd hMember hNone
  · have hEnd :
        (sign negative ++
            withPoint whole (before ++ [last])).getLast? =
          some last := by
      simp [withPoint, List.getLast?_append, List.getLast?_cons]
    rw [List.getLast?_concat] at hLast
    constructor
    case point =>
      rw [hEnd]
      rintro ⟨⟩
      exact hPoint hPlaces (by simp)
    case zero =>
      rw [hEnd]
      exact fun _ => hLast

/- Units that are trimmed leave nothing to be trimmed. -/
theorem isTrimmed_sign_trimmed
    (negative : Bool)
    (p n : Nat) :
    IsTrimmed (sign negative ++ trimmed p n) := by
  apply isTrimmed_sign_withPoint
  · exact fun _ => isDigit_digits
  · exact fun _ => isDigit_trimmedPlaces
  · intro hEnd
    have hSome :
        (padded p (n % 10 ^ p)).rdropWhile (· == '0') ≠ [] :=
      List.ne_nil_of_mem (List.mem_of_getLast? hEnd)
    rw [List.getLast?_eq_some_getLast hSome,
      Option.some.injEq] at hEnd
    have hLast := List.rdropWhile_last_not _ _ hSome
    rw [hEnd] at hLast
    exact hLast rfl

------------------------------------------------------------
-- Trimming
------------------------------------------------------------

/-
  What trimming makes of a numeral with all its places: a
  numeral of the same value and with the same digits before
  the point, of which nothing more can be trimmed.
-/
structure Trims
    (all text : List Char) : Prop where
  before : isNumeral all = true
  nonempty : text ≠ []
  numeral : isNumeral text = true
  value : Decimal.value text = Decimal.value all
  wholePart : Decimal.wholePart text = Decimal.wholePart all
  trimmed : IsTrimmed text

theorem isNumeral_sign_places
    (negative : Bool)
    (p n : Nat) :
    isNumeral (sign negative ++ places p n) = true := by
  rw [places_eq_withPoint]
  apply isNumeral_withPoint
  · exact digits_ne_nil _
  · exact fun _ => isDigit_digits
  · split
    · exact fun _ hMember => nomatch hMember
    · exact fun _ => isDigit_padded

theorem isNumeral_sign_trimmed
    (negative : Bool)
    (p n : Nat) :
    isNumeral (sign negative ++ trimmed p n) = true := by
  apply isNumeral_withPoint
  · exact digits_ne_nil _
  · exact fun _ => isDigit_digits
  · exact fun _ => isDigit_trimmedPlaces

/-
  Units are trimmed with their sign.  It makes no difference
  where there are no units.
-/
theorem trims_sign_places
    {negative other : Bool}
    {p n : Nat}
    (hSign : n ≠ 0 → negative = other) :
    Trims (sign negative ++ places p n)
      (sign other ++ trimmed p n) := by
  have hNumeral := isNumeral_sign_trimmed other p n
  constructor
  case before => exact isNumeral_sign_places negative p n
  case nonempty =>
    intro hNone
    rw [hNone] at hNumeral
    cases hNumeral
  case numeral => exact hNumeral
  case value =>
    rw [value_sign_trimmed, value_sign_places]
    by_cases hNone : n = 0
    · simp [hNone, signed]
    · rw [hSign hNone]
  case wholePart =>
    have hWhole (sign : Bool) :=
      wholePart_sign_withPoint sign
        (digits_ne_nil (n / 10 ^ p)) (fun _ => isDigit_digits)
    rw [places_eq_withPoint, trimmed, hWhole, hWhole]
  case trimmed => exact isTrimmed_sign_trimmed other p n

end Decimal

------------------------------------------------------------
-- Written Numbers
------------------------------------------------------------

namespace Svg

open Decimal

/-
  What is written for a finite number is the numeral with all
  its places, trimmed.  Its value is the one to which the
  number is rounded.
-/
theorem trimming_keeps_number
    (n : Nat)
    {x : Float}
    (hFinite : x.isFinite = true) :
    Trims (fixed n x) (number n x).toList ∧
      ∀ r : ℚ,
        value (number n x).toList = r ↔
          IsRounded n (Binary.ofFloat x).value r := by
  rcases exists_places n hFinite with
    ⟨negative, units, hPlaces, hText, hSign⟩
  have hTrims :
      Trims (fixed n x) (number n x).toList := by
    rw [hPlaces, hText]
    exact trims_sign_places hSign
  refine ⟨hTrims, fun r => ?_⟩
  have hRounded := isRounded_fixed n hFinite
  rw [hTrims.value]
  constructor
  · rintro rfl
    exact hRounded
  · exact hRounded.unique

/-
  A number in the middle between two whole ones.  The zeros of
  its places are trimmed, and those of its hundreds are not.
-/
theorem trimming_keeps_number_hundreds :
    let x : Float := -1200.5
    x.isFinite = true ∧
      IsTrimmed (number 3 x).toList ∧
      value (number 3 x).toList = -1200.5 ∧
      wholePart (number 0 x).toList = "1200".toList ∧
      value (number 0 x).toList = -1200 := by
  intro x
  have hFinite : x.isFinite = true := by decide
  have hExact : (Binary.ofFloat x).value = -1200.5 := by
    decide +kernel
  rcases trimming_keeps_number 3 hFinite with
    ⟨hTrims, hRounds⟩
  rcases trimming_keeps_number 0 hFinite with
    ⟨hTrimsWhole, hRoundsWhole⟩
  refine ⟨hFinite, hTrims.trimmed, ?_, ?_, ?_⟩
  · rw [hRounds, hExact]
    exact ⟨-1200500, by norm_num, by norm_num, by norm_num⟩
  · rw [hTrimsWhole.wholePart]
    decide +kernel
  · rw [hRoundsWhole, hExact]
    exact ⟨-1200, by norm_num, by norm_num, fun _ => by decide⟩

end Svg

end Lindenmayer
