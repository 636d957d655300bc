import Lindenmayer.Proofs.Decimal.Value
import Lindenmayer.Proofs.Drawing.Numerals

/-
  The extents that the document of a drawing shows.

  A drawing is written only if its frame encloses an area: its
  extents are above zero before they are rounded.  What is
  shown of them, in the view box and in the background, is a
  numeral without a sign that is off by half a unit of its
  last place at most, or infinity.

  Key definitions include:
    * `Markup.Piece.extents`
    * `Svg.Shows`

  Correctness is proven by:
    * `Svg.extents_elements`
    * `Svg.shows_numeral`
    * `Svg.extents_of_document`
-/

namespace Lindenmayer

------------------------------------------------------------
-- Shown Extents
------------------------------------------------------------

/-
  The extents that a piece shows: those at the end of a view
  box, and the width and the height of an element.
-/
def Markup.Piece.extents
    (p : Piece) : List (List Char) :=
  p.attributes.flatMap fun a =>
    if a.name = "viewBox" then
      (Markup.numerals a.value.toList).drop 2
    else if a.name = "width" ∨ a.name = "height" then
      [a.value.toList]
    else []

namespace Svg

open Markup
open Decimal (value)

/- The extents of a frame, as they are written. -/
def extentNumerals
    (n : Nat)
    (b : Bounds) : List (List Char) :=
  [numeral n b.width, numeral n b.height]

theorem extents_root
    (n : Nat)
    (b : Bounds) :
    (root n b).extents = extentNumerals n b := by
  have hAttributes :
      (root n b).extents =
        (numerals
          (" ".intercalate
            ((frameNumbers b).map (number n))).toList).drop
              2 := by
    simp [root, viewBox, frameNumbers, Piece.extents,
      -String.toList_intercalate]
  rw [hAttributes, numerals_numbers]
  rfl

theorem extents_backgroundPieces
    (n : Nat)
    (background : String)
    (b : Bounds) :
    (backgroundPieces n background b).flatMap Piece.extents =
      if background.toLower = "none" then []
      else extentNumerals n b := by
  unfold backgroundPieces
  split
  · rfl
  · simp [Piece.extents, layout, extentNumerals, numeral]

/- The drawing itself shows no extents. -/
theorem extents_drawingPieces
    (n : Nat)
    (flip : Bool)
    (pen : String)
    (b : Bounds)
    (ls : List Polyline) :
    (drawingPieces n flip pen b ls).flatMap Piece.extents =
      [] := by
  have hLines (indent : Nat) :
      (ls.flatMap (polylinePieces n indent pen)).flatMap
        Piece.extents = [] := by
    simp [List.flatMap_assoc, polylinePieces, Piece.extents,
      layout]
  cases flip with
  | true =>
      simp only [drawingPieces, if_true, List.flatMap_append,
        hLines]
      simp [layout, Piece.extents]
  | false => exact hLines 2

/-
  The extents in the document of a drawing: those of the view
  box, and those of the background if it is painted.
-/
theorem extents_elements
    (n : Nat)
    (o : Options)
    (c : Config)
    (b : Bounds)
    (ls : List Polyline) :
    (elements n o c b ls).flatMap Piece.extents =
      extentNumerals n b ++
        if c.background.toLower = "none" then []
        else extentNumerals n b := by
  have hTitle :
      (titlePieces (o.title.getD "")).flatMap
        Piece.extents = [] := by
    unfold titlePieces
    split <;> rfl
  have hRoot := extents_root n b
  simp only [root, viewBox] at hRoot
  simp only [elements, List.flatMap_append, hTitle,
    extents_backgroundPieces, extents_drawingPieces,
    List.flatMap_cons, List.flatMap_nil, hRoot]
  simp [layout, Piece.extents]

------------------------------------------------------------
-- Extents above Zero
------------------------------------------------------------

/-
  How an extent above zero is shown.  A finite one is shown as
  a numeral without a sign, rounded to the nearest one, which
  is above zero when the extent exceeds half a unit of its
  last place.
-/
structure Shows
    (n : Nat)
    (x : Float)
    (w : List Char) : Prop where
  overflow : x.isFinite = false → w = "inf".toList
  unsigned : x.isFinite = true → Decimal.isUnsigned w = true
  near :
    x.isFinite = true →
      |value w - (Binary.ofFloat x).value| ≤ 1 / (2 * 10 ^ n)
  positive :
    x.isFinite = true →
      1 / (2 * 10 ^ n) < (Binary.ofFloat x).value →
        0 < value w

theorem eq_inf_of_pos
    {x : Float}
    (hPos : 0.0 < x)
    (hNotFinite : x.isFinite = false) :
    x = .inf := by
  rcases Number.eq_of_not_finite hNotFinite with
    rfl | rfl | rfl
  · exact absurd hPos (by decide)
  · rfl
  · exact absurd hPos (by decide)

/- A number above zero is shown by its numeral. -/
theorem shows_numeral
    (n : Nat)
    {x : Float}
    (hPos : 0.0 < x) :
    Shows n x (numeral n x) := by
  have hNear (hFinite : x.isFinite = true) :
      |value (numeral n x) - (Binary.ofFloat x).value| ≤
        1 / (2 * 10 ^ n) := by
    rw [numeral, value_number n hFinite]
    exact Decimal.abs_value_fixed_sub_le n hFinite
  constructor
  case overflow =>
    intro hNotFinite
    rw [eq_inf_of_pos hPos hNotFinite]
    rfl
  case unsigned =>
    intro hFinite
    have hNotBelow := Number.not_neg_of_pos hPos
    rcases exists_units n hFinite with ⟨k, hText, _⟩
    rw [numeral, hText, decide_eq_false hNotBelow]
    exact Decimal.isUnsigned_trimmed n k
  case near => exact hNear
  case positive =>
    intro hFinite hExceeds
    have hBound := (abs_le.mp (hNear hFinite)).1
    linarith

------------------------------------------------------------
-- Documents
------------------------------------------------------------

/-
  A document is written only of a frame that encloses an area,
  and shows its extents: in the view box, and once more in the
  background if it is painted.
-/
theorem extents_of_document
    {p : Int}
    {o : Options}
    {c : Config}
    {ls : List Polyline}
    {text : String}
    (hText : documentAt p o c ls = .ok text) :
    ∃ b pieces width height,
      frame o.margin ls = .ok b ∧
        0.0 < b.width ∧
        0.0 < b.height ∧
        read text = some pieces ∧
        pieces.flatMap Piece.extents =
          [width, height] ++
            (if c.background.toLower = "none" then []
            else [width, height]) ∧
        Shows p.toNat b.width width ∧
        Shows p.toNat b.height height := by
  rcases read_documentAt hText with ⟨b, hFrame, _, hRead⟩
  have hArea := pos_of_frame hFrame
  exact ⟨b, _, _, _, hFrame, hArea.1, hArea.2, hRead,
    extents_elements p.toNat o c b ls,
    shows_numeral p.toNat hArea.1,
    shows_numeral p.toNat hArea.2⟩

/- A drawing of which a side is rounded, but not to zero. -/
theorem extents_of_document_low :
    let o : Options := { margin := 0.0, flip := false }
    let c : Config := {}
    let ls : List Polyline :=
      [.ofPoints 1.0 [⟨0.0, 0.0⟩, ⟨10.0, 0.0625⟩]]
    ∃ text pieces width height,
      documentAt 1 o c ls = .ok text ∧
        read text = some pieces ∧
        pieces.flatMap Piece.extents =
          [width, height, width, height] ∧
        0 < value width ∧
        0 < value height := by
  intro o c ls
  have hBounds :
      frame o.margin ls = .ok ⟨0.0, 0.0, 10.0, 0.0625⟩ := by
    decide +kernel
  have hBackground : c.background.toLower ≠ "none" :=
    (hasBackground_iff _).mp (by decide)
  rcases exists_document_of_frame (n := 1) (by decide) c
      hBounds with
    ⟨text, hText, _⟩
  rcases extents_of_document hText with
    ⟨b, pieces, width, height, hFrame, _, _, hRead, hExtents,
      hWidth, hHeight⟩
  cases hFrame.symm.trans hBounds
  refine ⟨text, pieces, width, height, hText, hRead, ?_,
    hWidth.positive (by decide) (by decide +kernel),
    hHeight.positive (by decide) (by decide +kernel)⟩
  rw [hExtents, if_neg hBackground]
  rfl

/-
  Of a drawing between finite points a side may be shown as no
  numeral, or as a zero.
-/
theorem extents_not_positive :
    let o : Options := { margin := 0.0, flip := false }
    let shows (x y : Float) (width : List Char) : Prop :=
      x.isFinite = true ∧
        y.isFinite = true ∧
        ∃ text pieces,
          documentAt 3 o {}
              [.ofPoints 1.0 [⟨x, 0.0⟩, ⟨y, 5.0⟩]] =
            .ok text ∧
          read text = some pieces ∧
          pieces.flatMap Piece.extents =
            [width, ['5'], width, ['5']]
    shows (-1e308) 1e308 "inf".toList ∧
      shows 0.0 0.0001 ['0'] ∧
      Decimal.isNumeral "inf".toList = false ∧
      value ['0'] = 0 := by
  intro o shows
  let c : Config := {}
  have hBackground : c.background.toLower ≠ "none" :=
    (hasBackground_iff _).mp (by decide)
  have hShows
      {x y : Float}
      {b : Bounds}
      {width : List Char}
      (hFinite : x.isFinite = true ∧ y.isFinite = true)
      (hFrame :
        frame 0.0 [.ofPoints 1.0 [⟨x, 0.0⟩, ⟨y, 5.0⟩]] =
          .ok b)
      (hExtents : extentNumerals 3 b = [width, ['5']]) :
      shows x y width := by
    rcases exists_document_of_frame (n := 3) (o := o)
        (by decide) c hFrame with
      ⟨text, hText, hRead⟩
    refine ⟨hFinite.1, hFinite.2, text, _, hText, hRead, ?_⟩
    rw [extents_elements, if_neg hBackground, hExtents]
    rfl
  refine ⟨?_, ?_, ?_, ?_⟩
  · exact hShows (b := ⟨-1e308, 0.0, 1e308, 5.0⟩)
      (by decide +kernel) (by decide +kernel)
      (by decide +kernel)
  · exact hShows (b := ⟨0.0, 0.0, 0.0001, 5.0⟩)
      (by decide +kernel) (by decide +kernel)
      (by decide +kernel)
  · decide
  · decide +kernel

end Svg

end Lindenmayer
