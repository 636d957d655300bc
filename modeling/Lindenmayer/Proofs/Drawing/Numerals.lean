import Lindenmayer.Proofs.Drawing.ReadBack

/-
  The numbers that stand in the document of a drawing.

  They are the frame, twice if there is a background, the
  numbers of the flip, and the coordinates and the widths of
  the polylines, each one as it is written.

  Key definitions include:
    * `Markup.numerals`
    * `Markup.Piece.numerals`
    * `Svg.InRange`

  Correctness is proven by:
    * `Markup.numerals_append`
    * `Svg.numerals_elements`
    * `Svg.forall_isNumeral_iff`
    * `Svg.isNumeral_or_word`
    * `Svg.pos_of_frame`
    * `Svg.number_ne_nan_of_frame`
-/

namespace Lindenmayer

------------------------------------------------------------
-- Words
------------------------------------------------------------

namespace Markup

/- Whether a character separates the numbers of a value. -/
def separates
    (c : Char) : Bool :=
  c = ' ' || c = ',' || c = '(' || c = ')'

/- The words that are no numbers: names, and no word at all. -/
def names : List (List Char) :=
  [[], "translate".toList, "scale".toList]

/- The numbers in a value: its words, without the names. -/
def numerals
    (value : List Char) : List (List Char) :=
  (value.splitOnP separates).filter (· ∉ names)

/- The attributes of a piece. -/
@[simp] def Piece.attributes : Piece → List Attribute
  | .declaration as => as
  | .opening _ as => as
  | .alone _ as => as
  | .closing _ => []
  | .text _ => []

/- The attributes whose values are numbers. -/
def numericKeys : List String :=
  ["viewBox", "x", "y", "width", "height", "transform",
    "points", "stroke-width"]

/- The numbers in the attributes of a piece. -/
def Piece.numerals
    (p : Piece) : List (List Char) :=
  p.attributes.flatMap fun a =>
    if a.name ∈ numericKeys then
      Markup.numerals a.value.toList
    else []

theorem numerals_append
    {c : Char}
    (hSeparates : separates c = true)
    (first second : List Char) :
    numerals (first ++ c :: second) =
      numerals first ++ numerals second := by
  rw [numerals, List.splitOnP_append_cons _ _ hSeparates,
    List.filter_append]
  rfl

end Markup

namespace Svg

open Markup

------------------------------------------------------------
-- Values
------------------------------------------------------------

/- A number as it is written. -/
def numeral
    (n : Nat)
    (x : Float) : List Char :=
  (number n x).toList

/- The words for what is not finite. -/
def notFiniteWords : List (List Char) :=
  ["nan".toList, "inf".toList, "-inf".toList]

/- A number is written as a numeral or as a word. -/
theorem numeral_cases
    (n : Nat)
    (x : Float) :
    Decimal.isNumeral (numeral n x) = true ∨
      numeral n x ∈ notFiniteWords := by
  cases hFinite : x.isFinite with
  | true => exact .inl ((isNumeral_number n x).trans hFinite)
  | false =>
      rcases number_of_not_finite n hFinite with
        ⟨_, hText⟩ | ⟨_, hText | hText⟩ <;>
        simp [numeral, notFiniteWords, hText]

/- A written number is one word, and it is no name. -/
@[simp] theorem numerals_number
    (n : Nat)
    (x : Float) :
    numerals (number n x).toList = [numeral n x] := by
  have hTogether :
      ∀ c ∈ (number n x).toList, separates c = false := by
    intro c hMember
    rw [Bool.eq_false_iff]
    intro hSeparates
    have hOther : ¬ (c.isAlphanum = true ∨ c = '-' ∨ c = '.') := by
      simp only [separates, Bool.or_eq_true, decide_eq_true_eq]
        at hSeparates
      rcases hSeparates with ((rfl | rfl) | rfl) | rfl <;>
        decide
    exact not_mem_number n x hOther hMember
  have hNumber : numeral n x ∉ names := by
    rcases numeral_cases n x with hNumeral | hWord
    · have hNames :
          ∀ w ∈ names, ¬ Decimal.isNumeral w = true := by
        decide
      exact fun hName => hNames _ hName hNumeral
    · have hWords : ∀ w ∈ notFiniteWords, w ∉ names := by
        decide
      exact hWords _ hWord
  rw [numerals, List.splitOnP_eq_singleton hTogether]
  change [numeral n x].filter (· ∉ names) = _
  simp [hNumber]

/- The numbers of a point, and those of points. -/
theorem numerals_pointText
    (n : Nat)
    (p : Point) :
    numerals (pointText n p).toList =
      [p.x, p.y].map (numeral n) := by
  rw [toList_pointText, numerals_append (by decide),
    numerals_number, numerals_number]
  rfl

/- The numbers of values that are separated by spaces. -/
theorem numerals_intercalate
    (values : List String) :
    numerals (" ".intercalate values).toList =
      values.flatMap fun value => numerals value.toList := by
  induction values with
  | nil => rfl
  | cons first rest ih =>
      cases rest with
      | nil => simp
      | cons second rest =>
          have hWritten :
              (" ".intercalate (first :: second :: rest)).toList =
                first.toList ++
                  ' ' ::
                    (" ".intercalate (second :: rest)).toList := by
            simp
          rw [hWritten, numerals_append (by decide), ih]
          rfl

/- The numbers of some numbers that are separated by spaces. -/
theorem numerals_numbers
    (n : Nat)
    (xs : List Float) :
    numerals (" ".intercalate (xs.map (number n))).toList =
      xs.map (numeral n) := by
  rw [numerals_intercalate, List.flatMap_map]
  simp only [numerals_number]
  exact List.flatMap_pure_eq_map (numeral n) xs

------------------------------------------------------------
-- Elements
------------------------------------------------------------

/- The numbers of a frame: its corner and its extents. -/
def frameNumbers
    (b : Bounds) : List Float :=
  [b.minX, b.minY, b.width, b.height]

/- The numbers of a polyline: its points, and its width. -/
def lineNumbers
    (l : Polyline) : List Float :=
  l.points.flatMap (fun p => [p.x, p.y]) ++ [l.width]

/- The numbers that flip a drawing. -/
def flipNumerals
    (n : Nat)
    (b : Bounds) : List (List Char) :=
  [['0'], numeral n (b.minY + b.maxY), ['1'], ['-', '1']]

theorem numerals_flip
    (n : Nat)
    (b : Bounds) :
    numerals
        ("translate(0," ++ number n (b.minY + b.maxY) ++
          ") scale(1,-1)").toList =
      flipNumerals n b := by
  have hWritten :
      ("translate(0," ++ number n (b.minY + b.maxY) ++
          ") scale(1,-1)").toList =
        "translate(0".toList ++
          ',' :: ((number n (b.minY + b.maxY)).toList ++
            ')' :: " scale(1,-1)".toList) := by
    simp
  have hBefore : numerals "translate(0".toList = [['0']] := by
    decide
  have hAfter :
      numerals " scale(1,-1)".toList = [['1'], ['-', '1']] := by
    decide
  rw [hWritten, numerals_append (by decide),
    numerals_append (by decide), hBefore, hAfter,
    numerals_number]
  rfl

/- The numbers in the attributes of polylines. -/
theorem numerals_polylinePieces
    (n indent : Nat)
    (pen : String)
    (l : Polyline) :
    (polylinePieces n indent pen l).flatMap Piece.numerals =
      (lineNumbers l).map (numeral n) := by
  have hAttributes :
      (polylinePieces n indent pen l).flatMap Piece.numerals =
        numerals
            (" ".intercalate
              (l.points.map (pointText n))).toList ++
          numerals (number n l.width).toList := by
    simp [polylinePieces, Piece.numerals, layout, numericKeys,
      -String.toList_intercalate]
  rw [hAttributes, numerals_intercalate, List.flatMap_map,
    numerals_number, lineNumbers, List.map_append,
    List.map_flatMap]
  simp only [numerals_pointText]
  rfl

theorem numerals_root
    (n : Nat)
    (b : Bounds) :
    (root n b).numerals = (frameNumbers b).map (numeral n) := by
  have hAttributes :
      (root n b).numerals =
        numerals
          (" ".intercalate
            ((frameNumbers b).map (number n))).toList := by
    simp [root, viewBox, frameNumbers, Piece.numerals,
      numericKeys, -String.toList_intercalate]
  rw [hAttributes, numerals_numbers]

theorem numerals_backgroundPieces
    (n : Nat)
    (background : String)
    (b : Bounds) :
    (backgroundPieces n background b).flatMap
        Piece.numerals =
      if background.toLower = "none" then []
      else (frameNumbers b).map (numeral n) := by
  unfold backgroundPieces
  split
  · rfl
  · simp [Piece.numerals, layout, numericKeys, frameNumbers]

theorem numerals_drawingPieces
    (n : Nat)
    (flip : Bool)
    (pen : String)
    (b : Bounds)
    (ls : List Polyline) :
    (drawingPieces n flip pen b ls).flatMap Piece.numerals =
      (if flip then flipNumerals n b else []) ++
        (ls.flatMap lineNumbers).map (numeral n) := by
  have hLines (indent : Nat) :
      (ls.flatMap (polylinePieces n indent pen)).flatMap
          Piece.numerals =
        (ls.flatMap lineNumbers).map (numeral n) := by
    rw [List.flatMap_assoc, List.map_flatMap]
    simp only [numerals_polylinePieces]
  have hGroup :
      Piece.numerals
          (.opening "g"
            [⟨"transform",
              "translate(0," ++ number n (b.minY + b.maxY) ++
                ") scale(1,-1)"⟩]) =
        flipNumerals n b := by
    rw [← numerals_flip]
    simp [Piece.numerals, numericKeys, -String.toList_append]
  cases flip with
  | true =>
      simp only [drawingPieces, if_true, List.flatMap_append,
        List.flatMap_cons, List.flatMap_nil, hLines, hGroup]
      simp [layout, Piece.numerals]
  | false => exact hLines 2

/-
  The numbers in the document of a drawing, in the order in
  which they stand.
-/
theorem numerals_elements
    (n : Nat)
    (o : Options)
    (c : Config)
    (b : Bounds)
    (ls : List Polyline) :
    (elements n o c b ls).flatMap Piece.numerals =
      (frameNumbers b).map (numeral n) ++
        (if c.background.toLower = "none" then []
        else (frameNumbers b).map (numeral n)) ++
        (if o.flip then flipNumerals n b else []) ++
        (ls.flatMap lineNumbers).map (numeral n) := by
  have hTitle :
      (titlePieces (o.title.getD "")).flatMap
        Piece.numerals = [] := by
    unfold titlePieces
    split <;> rfl
  have hRoot := numerals_root n b
  simp only [root, viewBox] at hRoot
  simp only [elements, List.flatMap_append, hTitle,
    numerals_backgroundPieces, numerals_drawingPieces,
    List.flatMap_cons, List.flatMap_nil, hRoot]
  simp [layout, Piece.numerals, numericKeys]

------------------------------------------------------------
-- Finite Numbers
------------------------------------------------------------

/-
  No number of a drawing has overflowed: neither the extents
  of its frame, nor the sum by which it is flipped, nor the
  width or a coordinate of a polyline.
-/
structure InRange
    (flip : Bool)
    (b : Bounds)
    (ls : List Polyline) : Prop where
  width : b.width.isFinite = true
  height : b.height.isFinite = true
  axis : flip = true → (b.minY + b.maxY).isFinite = true
  widths : ∀ l ∈ ls, l.width.isFinite = true
  points :
    ∀ l ∈ ls, ∀ p ∈ l.points,
      p.x.isFinite = true ∧ p.y.isFinite = true

/- A frame with finite extents has a finite corner. -/
theorem forall_frameNumbers_iff
    (b : Bounds) :
    (∀ x ∈ frameNumbers b, x.isFinite = true) ↔
      b.width.isFinite = true ∧ b.height.isFinite = true := by
  constructor
  · intro hFinite
    exact ⟨hFinite _ (by simp [frameNumbers]),
      hFinite _ (by simp [frameNumbers])⟩
  · rintro ⟨hWidth, hHeight⟩ x hMember
    have hX := (Number.isFinite_of_sub hWidth).2
    have hY := (Number.isFinite_of_sub hHeight).2
    simp only [frameNumbers, List.mem_cons, List.not_mem_nil,
      or_false] at hMember
    rcases hMember with rfl | rfl | rfl | rfl <;> assumption

theorem forall_flipNumerals_iff
    (n : Nat)
    (b : Bounds) :
    (∀ w ∈ flipNumerals n b, Decimal.isNumeral w = true) ↔
      (b.minY + b.maxY).isFinite = true := by
  have hConstants :
      Decimal.isNumeral ['0'] = true ∧
        Decimal.isNumeral ['1'] = true ∧
        Decimal.isNumeral ['-', '1'] = true := by
    decide
  simp [flipNumerals, numeral, hConstants]

theorem forall_lineNumbers_iff
    (ls : List Polyline) :
    (∀ x ∈ ls.flatMap lineNumbers, x.isFinite = true) ↔
      (∀ l ∈ ls, l.width.isFinite = true) ∧
        ∀ l ∈ ls, ∀ p ∈ l.points,
          p.x.isFinite = true ∧ p.y.isFinite = true := by
  simp only [List.forall_mem_flatMap, lineNumbers,
    List.forall_mem_append, List.forall_mem_cons,
    List.not_mem_nil, false_imp_iff, implies_true, and_true]
  rw [and_comm, forall₂_and]

/-
  All numbers in the document are numerals unless a number of
  the drawing has overflowed.
-/
theorem forall_isNumeral_iff
    (n : Nat)
    (o : Options)
    (c : Config)
    (b : Bounds)
    (ls : List Polyline) :
    (∀ w ∈ (elements n o c b ls).flatMap Piece.numerals,
      Decimal.isNumeral w = true) ↔
      InRange o.flip b ls := by
  have hNumbers (xs : List Float) :
      (∀ w ∈ xs.map (numeral n), Decimal.isNumeral w = true) ↔
        ∀ x ∈ xs, x.isFinite = true := by
    simp [numeral]
  rw [numerals_elements, List.forall_mem_append,
    List.forall_mem_append, List.forall_mem_append, hNumbers,
    hNumbers, forall_frameNumbers_iff, forall_lineNumbers_iff]
  constructor
  · rintro ⟨⟨⟨hFrame, _⟩, hFlip⟩, hLines⟩
    refine ⟨hFrame.1, hFrame.2, ?_, hLines.1, hLines.2⟩
    intro hFlipped
    rw [if_pos hFlipped, forall_flipNumerals_iff] at hFlip
    exact hFlip
  · intro hRange
    have hFrame := And.intro hRange.width hRange.height
    refine ⟨⟨⟨hFrame, ?_⟩, ?_⟩, hRange.widths, hRange.points⟩
    · split
      · exact fun w hMember => nomatch hMember
      · rw [hNumbers, forall_frameNumbers_iff]
        exact hFrame
    · split
      · rename_i hFlipped
        rw [forall_flipNumerals_iff]
        exact hRange.axis hFlipped
      · exact fun w hMember => nomatch hMember

/- A number in the document is a numeral or a word. -/
theorem isNumeral_or_word
    {n : Nat}
    {o : Options}
    {c : Config}
    {b : Bounds}
    {ls : List Polyline}
    {w : List Char}
    (hMember :
      w ∈ (elements n o c b ls).flatMap Piece.numerals) :
    Decimal.isNumeral w = true ∨ w ∈ notFiniteWords := by
  have hNumber {xs : List Float}
      (hWritten : w ∈ xs.map (numeral n)) :
      Decimal.isNumeral w = true ∨ w ∈ notFiniteWords := by
    rcases List.mem_map.mp hWritten with ⟨x, _, rfl⟩
    exact numeral_cases n x
  rw [numerals_elements, List.mem_append, List.mem_append,
    List.mem_append] at hMember
  rcases hMember with
    ((hFrame | hBackground) | hFlip) | hLines
  · exact hNumber hFrame
  · split at hBackground
    · cases hBackground
    · exact hNumber hBackground
  · split at hFlip
    · simp only [flipNumerals, List.mem_cons,
        List.not_mem_nil, or_false] at hFlip
      rcases hFlip with rfl | rfl | rfl | rfl
      · exact .inl (by decide)
      · exact numeral_cases n _
      · exact .inl (by decide)
      · exact .inl (by decide)
    · cases hFlip
  · exact hNumber hLines

/- A frame encloses an area. -/
theorem pos_of_frame
    {margin : Float}
    {ls : List Polyline}
    {b : Bounds}
    (hFrame : frame margin ls = .ok b) :
    0.0 < b.width ∧ 0.0 < b.height := by
  unfold frame at hFrame
  split at hFrame
  · cases hFrame
  · simp only at hFrame
    split at hFrame <;> cases hFrame
    assumption

/- So its extents are numbers. -/
theorem number_ne_nan_of_frame
    {margin : Float}
    {ls : List Polyline}
    {b : Bounds}
    (hFrame : frame margin ls = .ok b)
    (n : Nat) :
    number n b.width ≠ "nan" ∧ number n b.height ≠ "nan" := by
  have hNumber {x : Float}
      (hPos : 0.0 < x) : number n x ≠ "nan" := by
    intro hText
    cases hFinite : x.isFinite with
    | true =>
        rw [← isNumeral_number n, hText] at hFinite
        exact absurd hFinite (by decide)
    | false =>
        rcases number_of_not_finite n hFinite with
          ⟨hNaN, _⟩ | ⟨_, hOther | hOther⟩
        · rw [Number.isNaN_of_pos hPos] at hNaN
          cases hNaN
        · rw [hOther] at hText
          exact absurd hText (by decide)
        · rw [hOther] at hText
          exact absurd hText (by decide)
  have hArea := pos_of_frame hFrame
  exact ⟨hNumber hArea.1, hNumber hArea.2⟩

end Svg

end Lindenmayer
