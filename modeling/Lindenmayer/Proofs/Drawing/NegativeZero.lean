import Lindenmayer.Proofs.Decimal.Value
import Lindenmayer.Proofs.Drawing.Numerals

/-
  Zeros with a sign in the document of a drawing.

  Numbers that are rounded to the same value are written the
  same, except those that are rounded to zero: there a number
  below zero keeps its sign.  So the document of a drawing has
  a zero with a sign wherever a number of the drawing is below
  zero, but by less than its places can tell.

  Key definitions include:
    * `Svg.RoundsToZero`
    * `Svg.drawnNumbers`

  Correctness is proven by:
    * `Svg.roundsToZero_iff`
    * `Svg.number_eq_iff`
    * `Svg.number_of_roundsToZero`
    * `Svg.numeral_eq_negativeZero_iff`
    * `Svg.negativeZero_mem_elements_iff`
    * `Svg.signs_of_zeros`
-/

namespace Lindenmayer

namespace Svg

open Markup
open Decimal (value fixed sign trimmed)
open Binary (signed)

/- A zero with a sign, as it is written. -/
def negativeZero : List Char :=
  ['-', '0']

------------------------------------------------------------
-- Numbers
------------------------------------------------------------

/- A number that is zero when it is rounded to some places. -/
structure RoundsToZero
    (n : Nat)
    (x : Float) : Prop where
  finite : x.isFinite = true
  zero : value (fixed n x) = 0

/- It is off from zero by half a unit at most. -/
theorem roundsToZero_iff
    (n : Nat)
    {x : Float}
    (hFinite : x.isFinite = true) :
    RoundsToZero n x ↔
      |(Binary.ofFloat x).value| ≤ 1 / (2 * 10 ^ n) := by
  rw [← Decimal.value_fixed_eq_zero_iff n hFinite]
  exact ⟨RoundsToZero.zero, fun hZero => ⟨hFinite, hZero⟩⟩

/-
  Numbers are written the same when they are rounded to the
  same value, and to the same side if that value is zero.
-/
theorem number_eq_iff
    (n : Nat)
    {x y : Float}
    (hX : x.isFinite = true)
    (hY : y.isFinite = true) :
    number n x = number n y ↔
      value (fixed n x) = value (fixed n y) ∧
        (value (fixed n x) = 0 → (x < 0.0 ↔ y < 0.0)) := by
  rcases exists_units n hX with ⟨k, hTextX, hValueX⟩
  rcases exists_units n hY with ⟨l, hTextY, hValueY⟩
  have hPower : (10 : ℚ) ^ n ≠ 0 := by positivity
  rw [← String.toList_inj, hTextX, hTextY,
    Decimal.sign_trimmed_inj, hValueX, hValueY,
    decide_eq_decide]
  constructor
  · rintro ⟨hSign, rfl⟩
    exact ⟨by simp only [hSign], fun _ => hSign⟩
  · rintro ⟨hValue, hSign⟩
    have hUnits :=
      Binary.signed_inj (by positivity) (by positivity) hValue
    refine ⟨?_, ?_⟩
    · by_cases hZero : (k : ℚ) / 10 ^ n = 0
      · exact hSign ((Binary.signed_eq_zero_iff _ _).mpr hZero)
      · exact decide_eq_decide.mp (hUnits.2 hZero)
    · exact Nat.cast_injective
        ((div_left_inj' hPower).mp hUnits.1)

/- What is written where a number is rounded to zero. -/
theorem number_of_roundsToZero
    {n : Nat}
    {x : Float}
    (hZero : RoundsToZero n x) :
    number n x = if x < 0.0 then "-0" else "0" := by
  rcases exists_units n hZero.finite with
    ⟨k, hText, hValue⟩
  have hUnits : k = 0 := by
    have hNone := hZero.zero
    rw [hValue, Binary.signed_eq_zero_iff] at hNone
    simpa using hNone
  rw [← String.toList_inj, hText, hUnits,
    Decimal.trimmed_zero]
  by_cases hBelow : x < 0.0 <;> simp [hBelow, sign]

/- All numbers that are written as a zero with a sign. -/
theorem numeral_eq_negativeZero_iff
    (n : Nat)
    (x : Float) :
    numeral n x = negativeZero ↔
      RoundsToZero n x ∧ x < 0.0 := by
  constructor
  · intro hText
    cases hFinite : x.isFinite with
    | false =>
        rcases number_of_not_finite n hFinite with
          ⟨_, hWord⟩ | ⟨_, hWord | hWord⟩ <;>
          rw [numeral, hWord] at hText <;>
          exact absurd hText (by decide)
    | true =>
        rcases exists_units n hFinite with
          ⟨k, hWritten, hValue⟩
        have hZero :
            sign (decide (x < 0.0)) ++ trimmed n k =
              sign true ++ trimmed n 0 := by
          rw [← hWritten, Decimal.trimmed_zero]
          exact hText
        rcases Decimal.sign_trimmed_inj.mp hZero with
          ⟨hBelow, hUnits⟩
        refine ⟨⟨hFinite, ?_⟩, of_decide_eq_true hBelow⟩
        simp [hValue, hUnits]
  · rintro ⟨hZero, hBelow⟩
    rw [numeral, number_of_roundsToZero hZero, if_pos hBelow]
    rfl

------------------------------------------------------------
-- Drawings
------------------------------------------------------------

/-
  The numbers of a drawing that are written in its document:
  its frame, the axis of the flip, and its polylines.
-/
def drawnNumbers
    (flip : Bool)
    (b : Bounds)
    (ls : List Polyline) : List Float :=
  frameNumbers b ++ (if flip then [b.minY + b.maxY] else []) ++
    ls.flatMap lineNumbers

/-
  A document has a zero with a sign if a number of its drawing
  is written so.  A background shows no other numbers.
-/
theorem negativeZero_mem_elements_iff
    (n : Nat)
    (o : Options)
    (c : Config)
    (b : Bounds)
    (ls : List Polyline) :
    negativeZero ∈
        (elements n o c b ls).flatMap Piece.numerals ↔
      ∃ x ∈ drawnNumbers o.flip b ls,
        RoundsToZero n x ∧ x < 0.0 := by
  have hWritten (xs : List Float) :
      negativeZero ∈ xs.map (numeral n) ↔
        ∃ x ∈ xs, RoundsToZero n x ∧ x < 0.0 := by
    simp only [List.mem_map, numeral_eq_negativeZero_iff]
  have hBackground :
      negativeZero ∈
          (if c.background.toLower = "none" then []
          else (frameNumbers b).map (numeral n)) →
        negativeZero ∈ (frameNumbers b).map (numeral n) := by
    split
    · exact fun hNone => nomatch hNone
    · exact id
  have hFlip :
      negativeZero ∈
          (if o.flip then flipNumerals n b else []) ↔
        negativeZero ∈
          (if o.flip then [b.minY + b.maxY] else []).map
            (numeral n) := by
    split
    · simp [flipNumerals, negativeZero]
    · rfl
  rw [← hWritten, drawnNumbers, List.map_append,
    List.map_append, numerals_elements]
  simp only [List.mem_append, hFlip]
  constructor
  · rintro (((hFrame | hSame) | hAxis) | hLines)
    · exact .inl (.inl hFrame)
    · exact .inl (.inl (hBackground hSame))
    · exact .inl (.inr hAxis)
    · exact .inr hLines
  · rintro ((hFrame | hAxis) | hLines)
    · exact .inl (.inl (.inl hFrame))
    · exact .inl (.inr hAxis)
    · exact .inr hLines

------------------------------------------------------------
-- Documents
------------------------------------------------------------

/-
  What becomes of the signs of zeros.  Numbers that are rounded
  to the same value are written the same, unless the value is
  zero and one of them is below it: that one is written with a
  sign.  A document has a zero with a sign if this happens to
  a number of its drawing.
-/
theorem signs_of_zeros
    (n : Nat) :
    (∀ x y : Float,
      x.isFinite = true → y.isFinite = true →
        (number n x = number n y ↔
          value (fixed n x) = value (fixed n y) ∧
            (value (fixed n x) = 0 →
              (x < 0.0 ↔ y < 0.0)))) ∧
      (∀ x : Float, x.isFinite = true →
        (RoundsToZero n x ↔
          |(Binary.ofFloat x).value| ≤ 1 / (2 * 10 ^ n))) ∧
      (∀ x : Float, RoundsToZero n x →
        number n x = if x < 0.0 then "-0" else "0") ∧
      ∀ (o : Options) (c : Config) (ls : List Polyline)
        (text : String),
        documentAt n o c ls = .ok text →
          ∃ b pieces,
            frame o.margin ls = .ok b ∧
              read text = some pieces ∧
              (negativeZero ∈ pieces.flatMap Piece.numerals ↔
                ∃ x ∈ drawnNumbers o.flip b ls,
                  RoundsToZero n x ∧ x < 0.0) := by
  refine ⟨fun x y => number_eq_iff n,
    fun x => roundsToZero_iff n,
    fun x => number_of_roundsToZero, ?_⟩
  intro o c ls text hText
  rcases read_documentAt hText with ⟨b, hFrame, _, hRead⟩
  exact ⟨b, _, hFrame, hRead,
    negativeZero_mem_elements_iff n o c b ls⟩

/- A drawing that reaches beyond an axis by too little. -/
theorem signs_of_zeros_beyond_axis :
    let x : Float := -0.004
    let o : Options := { margin := 1.0 }
    let ls : List Polyline :=
      [.ofPoints 1.0 [⟨0.0, 0.0⟩, ⟨x, 5.0⟩]]
    number 2 0.126 = number 2 0.134 ∧
      number 2 x = "-0" ∧
      ∃ text pieces,
        documentAt 2 o {} ls = .ok text ∧
          read text = some pieces ∧
          negativeZero ∈ pieces.flatMap Piece.numerals := by
  intro x o ls
  rcases signs_of_zeros 2 with
    ⟨hSame, hRounds, hZero, hDocument⟩
  have hRounded : RoundsToZero 2 x := by
    rw [hRounds x (by decide)]
    decide +kernel
  have hBelow : x < 0.0 := by decide
  refine ⟨?_, ?_, ?_⟩
  · rw [hSame 0.126 0.134 (by decide) (by decide)]
    decide +kernel
  · rw [hZero x hRounded, if_pos hBelow]
  · have hFrame :
        frame o.margin ls =
          .ok (.widen ⟨x, 0.0, 0.0, 5.0⟩ 1.0) := by
      decide +kernel
    rcases exists_document_of_frame (n := 2) (by decide) {}
        hFrame with
      ⟨text, hText, _⟩
    rcases hDocument o {} ls text hText with
      ⟨b, pieces, _, hRead, hMember⟩
    refine ⟨text, pieces, hText, hRead, ?_⟩
    rw [hMember]
    refine ⟨x, ?_, hRounded, hBelow⟩
    simp [drawnNumbers, ls, Polyline.ofPoints,
      Polyline.points, lineNumbers]

/- Two numbers with the same value that are told apart. -/
theorem number_keeps_sign :
    let x : Float := -0.0001
    let y : Float := 0.0
    x.isFinite = true ∧
      y.isFinite = true ∧
      value (fixed 3 x) = value (fixed 3 y) ∧
      number 3 x = "-0" ∧
      number 3 y = "0" := by
  decide +kernel

end Svg

end Lindenmayer
