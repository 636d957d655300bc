import Lindenmayer.Proofs.Decimal.FixedNumeral
import Lindenmayer.Proofs.Markup.Layout

/-
  The document of a drawing, read back as markup.

  Whatever the title and the colors are, the document has the
  elements of the drawing and no others: they are given back
  as they are, in the places where they belong.

  Key definitions include:
    * `Svg.elements`
    * `Svg.readPoints`
    * `Svg.attribute?`

  Correctness is proven by:
    * `Svg.readPoints_intercalate`
    * `Svg.read_lines`
    * `Svg.read_documentAt`
    * `Svg.exists_document_of_frame`
    * `Svg.document_read_back`
-/

namespace Lindenmayer

namespace Svg

open Markup

------------------------------------------------------------
-- Elements
------------------------------------------------------------

/- The pieces of the title. -/
def titlePieces
    (title : String) : List Piece :=
  if title = "" then []
  else
    [layout 2, .opening "title" [], .text title,
      .closing "title"]

/- The pieces of the background. -/
def backgroundPieces
    (n : Nat)
    (background : String)
    (b : Bounds) : List Piece :=
  if background.toLower = "none" then []
  else
    [layout 2,
      .alone "rect"
        [⟨"x", number n b.minX⟩,
          ⟨"y", number n b.minY⟩,
          ⟨"width", number n b.width⟩,
          ⟨"height", number n b.height⟩,
          ⟨"fill", background⟩]]

/- The pieces of a polyline. -/
def polylinePieces
    (n : Nat)
    (indent : Nat)
    (pen : String)
    (l : Polyline) : List Piece :=
  [layout indent,
    .alone "polyline"
      [⟨"points", " ".intercalate (l.points.map (pointText n))⟩,
        ⟨"stroke", pen⟩,
        ⟨"stroke-width", number n l.width⟩,
        ⟨"fill", "none"⟩,
        ⟨"stroke-linecap", "round"⟩,
        ⟨"stroke-linejoin", "round"⟩]]

/- The pieces of the drawing itself, in a group if flipped. -/
def drawingPieces
    (n : Nat)
    (flip : Bool)
    (pen : String)
    (b : Bounds)
    (ls : List Polyline) : List Piece :=
  if flip then
    [layout 2,
      .opening "g"
        [⟨"transform",
          "translate(0," ++ number n (b.minY + b.maxY) ++
            ") scale(1,-1)"⟩]] ++
      ls.flatMap (polylinePieces n 4 pen) ++
      [layout 2, .closing "g"]
  else ls.flatMap (polylinePieces n 2 pen)

/-
  All pieces of the document of a drawing: the tags of its
  elements, with layout between them.
-/
def elements
    (n : Nat)
    (o : Options)
    (c : Config)
    (b : Bounds)
    (ls : List Polyline) : List Piece :=
  [.declaration [⟨"version", "1.0"⟩, ⟨"encoding", "UTF-8"⟩],
    layout 0,
    .opening "svg"
      [⟨"xmlns", "http://www.w3.org/2000/svg"⟩,
        ⟨"version", "1.1"⟩,
        ⟨"viewBox",
          " ".intercalate
            ([b.minX, b.minY, b.width, b.height].map
              (number n))⟩]] ++
    titlePieces (o.title.getD "") ++
    backgroundPieces n c.background b ++
    drawingPieces n o.flip c.pen b ls ++
    [layout 0, .closing "svg", layout 0]

------------------------------------------------------------
-- Lines
------------------------------------------------------------

/- The name of no color, in letters of either case. -/
theorem hasBackground_iff
    (background : String) :
    hasBackground background = true ↔
      background.toLower ≠ "none" := by
  rw [hasBackground, bne_iff_ne, ne_eq, ne_eq, not_iff_not,
    String.toLower, ← String.toList_inj, String.toList_map]

theorem laidOut_titleLines
    (title : Option String) :
    (titleLines title).flatMap Line.laidOut =
      titlePieces (title.getD "") := by
  cases title with
  | none => rfl
  | some s =>
      by_cases hEmpty : s = ""
      · rw [hEmpty]
        rfl
      · simp [titleLines, titlePieces, hEmpty, Line.laidOut]

theorem laidOut_backgroundLines
    (n : Nat)
    (background : String)
    (b : Bounds) :
    (backgroundLines n background b).flatMap Line.laidOut =
      backgroundPieces n background b := by
  by_cases hNone : background.toLower = "none"
  · have hNot : ¬ hasBackground background = true := by
      rw [hasBackground_iff, not_not]
      exact hNone
    rw [backgroundLines, backgroundPieces, if_neg hNot,
      if_pos hNone]
    rfl
  · rw [backgroundLines, backgroundPieces,
      if_pos ((hasBackground_iff _).mpr hNone), if_neg hNone]
    rfl

theorem laidOut_drawingLines
    (o : Options)
    (pen : String)
    (b : Bounds)
    (ls : List Polyline) :
    (drawingLines o pen b ls).flatMap Line.laidOut =
      drawingPieces o.precision o.flip pen b ls := by
  cases hFlip : o.flip <;>
    simp [drawingLines, drawingPieces, hFlip, Line.laidOut,
      List.flatMap_map, flipped] <;>
    rfl

/- A line that is a single tag is proper. -/
theorem proper_of_isTag
    {indent : Nat}
    {p : Piece}
    (hTag : p.isTag = true) :
    Line.Proper ⟨indent, [p]⟩ :=
  ⟨p, [], rfl, hTag, .nil⟩

theorem proper_titleLines
    (title : Option String) :
    ∀ l ∈ titleLines title, l.Proper := by
  cases title with
  | none => exact fun l hMember => nomatch hMember
  | some s =>
      by_cases hEmpty : s = ""
      · rw [hEmpty]
        exact fun l hMember => nomatch hMember
      · intro l hMember
        have hLine :
            l = ⟨2, [.opening "title" [], .text s,
              .closing "title"]⟩ := by
          simpa [titleLines, hEmpty] using hMember
        have hOpening : (Piece.opening "title" []).isTag = true :=
          by simp [isName]
        have hClosing : (Piece.closing "title").isTag = true := by
          simp [isName]
        rw [hLine]
        exact ⟨_, _, rfl, hOpening,
          .textTag hEmpty hClosing .nil⟩

theorem proper_backgroundLines
    (n : Nat)
    (background : String)
    (b : Bounds) :
    ∀ l ∈ backgroundLines n background b, l.Proper := by
  intro l hMember
  unfold backgroundLines at hMember
  split at hMember
  · rw [List.mem_singleton] at hMember
    rw [hMember]
    exact proper_of_isTag (by simp [isName])
  · cases hMember

theorem proper_drawingLines
    (o : Options)
    (pen : String)
    (b : Bounds)
    (ls : List Polyline) :
    ∀ l ∈ drawingLines o pen b ls, l.Proper := by
  have hPolyline (l : Polyline) :
      (polyline o.precision pen l).isTag = true := by
    simp [polyline, isName]
  have hGroup : (flipped o.precision b).isTag = true := by
    simp [flipped, isName]
  have hClosing : (Piece.closing "g").isTag = true := rfl
  intro l hMember
  unfold drawingLines at hMember
  split at hMember
  · simp only [List.cons_append, List.mem_cons, List.mem_append,
      List.mem_map, List.not_mem_nil, or_false] at hMember
    rcases hMember with rfl | ⟨l, _, rfl⟩ | rfl
    · exact proper_of_isTag hGroup
    · exact proper_of_isTag (hPolyline l)
    · exact proper_of_isTag hClosing
  · rcases List.mem_map.mp hMember with ⟨l, _, rfl⟩
    exact proper_of_isTag (hPolyline l)

/- The lines of a drawing are read back as its elements. -/
theorem read_lines
    (o : Options)
    (c : Config)
    (b : Bounds)
    (ls : List Polyline) :
    read (Markup.document (lines o c b ls)) =
      some (elements o.precision o c b ls) := by
  have hLines :
      lines o c b ls =
        ⟨0, [declaration]⟩ ::
          (⟨0, [root o.precision b]⟩ :: titleLines o.title ++
            backgroundLines o.precision c.background b ++
            drawingLines o c.pen b ls ++
            [⟨0, [.closing "svg"]⟩]) := by
    simp [lines]
  have hDeclaration : Tagged [declaration] :=
    .tag (by simp [declaration, isName]) .nil
  have hRoot : (root o.precision b).isTag = true := by
    simp [root, isName]
  have hClosing : (Piece.closing "svg").isTag = true := rfl
  rw [hLines, read_document hDeclaration]
  · simp only [List.flatMap_append, List.flatMap_cons,
      List.flatMap_nil, laidOut_titleLines,
      laidOut_backgroundLines, laidOut_drawingLines,
      Line.laidOut]
    simp [elements, declaration, root, viewBox]
  · intro l hMember
    simp only [List.mem_append, List.mem_cons,
      List.not_mem_nil, or_false] at hMember
    rcases hMember with
      (((rfl | hTitle) | hBackground) | hDrawing) | rfl
    · exact proper_of_isTag hRoot
    · exact proper_titleLines _ l hTitle
    · exact proper_backgroundLines _ _ _ l hBackground
    · exact proper_drawingLines _ _ _ _ l hDrawing
    · exact proper_of_isTag hClosing

------------------------------------------------------------
-- Points
------------------------------------------------------------

/-
  The points in an attribute: numbers separated by commas, in
  points separated by spaces.
-/
def readPoints
    (value : String) : List (List (List Char)) :=
  if value = "" then []
  else (value.toList.splitOn ' ').map (List.splitOn ',')

/- The numbers of a point as they are written. -/
def pointNumbers
    (n : Nat)
    (p : Point) : List (List Char) :=
  [(number n p.x).toList, (number n p.y).toList]

/- The value of an attribute of an element without content. -/
def attribute?
    (name key : String) : Piece → Option String
  | .alone name' as =>
      if name' = name then
        (as.find? fun a => a.name = key).map Attribute.value
      else none
  | _ => none

theorem not_mem_number
    (n : Nat)
    (x : Float)
    {c : Char}
    (hOther : ¬ (c.isAlphanum = true ∨ c = '-' ∨ c = '.')) :
    c ∉ (number n x).toList :=
  fun hMember => hOther (mem_number hMember)

theorem toList_pointText
    (n : Nat)
    (p : Point) :
    (pointText n p).toList =
      (number n p.x).toList ++ ',' :: (number n p.y).toList := by
  simp [pointText]

/- A point is read back: no number has a comma in it. -/
theorem splitOn_pointText
    (n : Nat)
    (p : Point) :
    (pointText n p).toList.splitOn ',' = pointNumbers n p := by
  rw [toList_pointText,
    List.splitOn_append_cons_self_of_not_mem
      (not_mem_number n p.x (by decide)),
    List.splitOn_eq_singleton
      (not_mem_number n p.y (by decide))]
  rfl

/- Points are read back: no point has a space in it. -/
theorem readPoints_intercalate
    (n : Nat)
    (ps : List Point) :
    readPoints (" ".intercalate (ps.map (pointText n))) =
      ps.map (pointNumbers n) := by
  cases hPoints : ps with
  | nil => rfl
  | cons p rest =>
      rw [← hPoints]
      have hSplit :
          (" ".intercalate (ps.map (pointText n))).toList.splitOn
              ' ' =
            ps.map fun p => (pointText n p).toList := by
        rw [String.toList_intercalate, List.map_map]
        apply List.splitOn_intercalate
        · intro word hWord
          rcases List.mem_map.mp hWord with ⟨p, _, rfl⟩
          have hX := not_mem_number n p.x (c := ' ') (by decide)
          have hY := not_mem_number n p.y (c := ' ') (by decide)
          simp [toList_pointText, hX, hY]
        · simp [hPoints]
      have hSome :
          " ".intercalate (ps.map (pointText n)) ≠ "" := by
        intro hEmpty
        rw [hEmpty, hPoints, List.map_cons, toList_pointText]
          at hSplit
        simp at hSplit
      rw [readPoints, if_neg hSome, hSplit]
      simp only [List.map_map, Function.comp_def,
        splitOn_pointText]

theorem points_polylinePieces
    (n indent : Nat)
    (pen : String)
    (ls : List Polyline) :
    (ls.flatMap (polylinePieces n indent pen)).filterMap
        (attribute? "polyline" "points") =
      ls.map fun l =>
        " ".intercalate (l.points.map (pointText n)) := by
  induction ls with
  | nil => rfl
  | cons l ls ih =>
      rw [List.flatMap_cons, List.filterMap_append, ih]
      rfl

/- The points of the polylines are those of the elements. -/
theorem points_elements
    (n : Nat)
    (o : Options)
    (c : Config)
    (b : Bounds)
    (ls : List Polyline) :
    (elements n o c b ls).filterMap
        (attribute? "polyline" "points") =
      ls.map fun l =>
        " ".intercalate (l.points.map (pointText n)) := by
  have hTitle :
      (titlePieces (o.title.getD "")).filterMap
        (attribute? "polyline" "points") = [] := by
    unfold titlePieces
    split <;> rfl
  have hBackground :
      (backgroundPieces n c.background b).filterMap
        (attribute? "polyline" "points") = [] := by
    unfold backgroundPieces
    split <;> rfl
  have hDrawing :
      (drawingPieces n o.flip c.pen b ls).filterMap
          (attribute? "polyline" "points") =
        ls.map fun l =>
          " ".intercalate (l.points.map (pointText n)) := by
    unfold drawingPieces
    split
    · rw [List.filterMap_append, List.filterMap_append,
        points_polylinePieces]
      change [] ++ _ ++ [] = _
      rw [List.nil_append, List.append_nil]
    · exact points_polylinePieces n 2 c.pen ls
  rw [elements, List.filterMap_append, List.filterMap_append,
    List.filterMap_append, List.filterMap_append, hTitle,
    hBackground, hDrawing]
  change [] ++ [] ++ [] ++ _ ++ [] = _
  rw [List.append_nil]
  rfl

------------------------------------------------------------
-- Documents
------------------------------------------------------------

/- A precision is a natural number. -/
theorem nonneg_of_precision
    {p : Int}
    {n : Nat}
    (hPrecision : precision p = .ok n) :
    0 ≤ p ∧ n = p.toNat := by
  unfold precision at hPrecision
  split at hPrecision
  · cases hPrecision
  · split at hPrecision
    · cases hPrecision
    · split at hPrecision <;> cases hPrecision
      exact ⟨by omega, rfl⟩

/- A document is written of a drawing in its frame. -/
theorem read_documentAt
    {p : Int}
    {o : Options}
    {c : Config}
    {ls : List Polyline}
    {text : String}
    (hText : documentAt p o c ls = .ok text) :
    ∃ b,
      frame o.margin ls = .ok b ∧
        0 ≤ p ∧
        read text = some (elements p.toNat o c b ls) := by
  unfold documentAt at hText
  split at hText
  · cases hText
  · rename_i b hFrame
    split at hText
    · cases hText
    · rename_i n hPrecision
      rcases nonneg_of_precision hPrecision with ⟨hNonneg, rfl⟩
      cases hText
      exact ⟨b, hFrame, hNonneg, read_lines _ c b ls⟩

/- Whatever has a frame has a document. -/
theorem exists_document_of_frame
    {n : Nat}
    (hPlaces : n < 2 ^ (31 : Nat))
    {o : Options}
    (c : Config)
    {ls : List Polyline}
    {b : Bounds}
    (hFrame : frame o.margin ls = .ok b) :
    ∃ text,
      documentAt n o c ls = .ok text ∧
        read text = some (elements n o c b ls) := by
  have hDocument :
      documentAt n o c ls =
        .ok (Markup.document
          (lines { o with precision := n } c b ls)) := by
    rw [documentAt_natCast n hPlaces, document, hFrame]
  exact ⟨_, hDocument, read_lines _ c b ls⟩

/-
  A document that is written has the elements of its drawing,
  and each polyline has the points it passes through.
-/
theorem document_read_back
    {p : Int}
    {o : Options}
    {c : Config}
    {ls : List Polyline}
    {text : String}
    (hText : documentAt p o c ls = .ok text) :
    ∃ b pieces,
      frame o.margin ls = .ok b ∧
        0 ≤ p ∧
        read text = some pieces ∧
        pieces = elements p.toNat o c b ls ∧
        (pieces.filterMap (attribute? "polyline" "points")).map
            readPoints =
          ls.map fun l =>
            l.points.map (pointNumbers p.toNat) := by
  unfold documentAt at hText
  cases hFrame : frame o.margin ls with
  | error e => simp [hFrame] at hText
  | ok b =>
      rw [hFrame] at hText
      have hPoints :
          ((elements p.toNat o c b ls).filterMap
              (attribute? "polyline" "points")).map
              readPoints =
            ls.map fun l =>
              l.points.map (pointNumbers p.toNat) := by
        rw [points_elements, List.map_map]
        exact List.map_congr_left fun l _ =>
          readPoints_intercalate p.toNat l.points
      cases hPrecision : precision p with
      | error e => simp [hPrecision] at hText
      | ok n =>
          rcases nonneg_of_precision hPrecision with
            ⟨hNonneg, rfl⟩
          simp only [hPrecision, Except.ok.injEq] at hText
          refine ⟨b, _, rfl, hNonneg, ?_, rfl, hPoints⟩
          rw [← hText, read_lines]
          rfl

/- No title and no color can add to the elements. -/
theorem document_read_back_of_markup :
    ∃ text pieces,
      documentAt 2
          { title := some "</svg><g onload=\"&amp;\">" }
          { pen := "\"/><rect fill=\"red",
            background := "<None>" }
          [.ofPoints 0.5 [⟨0.0, 0.0⟩, ⟨10.0, 2.25⟩],
            .ofPoints 1.0 [⟨3.0, -1.0⟩, ⟨3.0, 7.0⟩]] =
        .ok text ∧
      read text = some pieces ∧
      .text "</svg><g onload=\"&amp;\">" ∈ pieces ∧
      pieces.filterMap (attribute? "rect" "fill") =
        ["<None>"] ∧
      pieces.filterMap (attribute? "polyline" "stroke") =
        ["\"/><rect fill=\"red", "\"/><rect fill=\"red"] ∧
      (pieces.filterMap (attribute? "polyline" "points")).map
          readPoints =
        [[["0".toList, "0".toList],
            ["10".toList, "2.25".toList]],
          [["3".toList, "-1".toList],
            ["3".toList, "7".toList]]] := by
  cases hText :
      documentAt 2
        { title := some "</svg><g onload=\"&amp;\">" }
        { pen := "\"/><rect fill=\"red", background := "<None>" }
        [.ofPoints 0.5 [⟨0.0, 0.0⟩, ⟨10.0, 2.25⟩],
          .ofPoints 1.0 [⟨3.0, -1.0⟩, ⟨3.0, 7.0⟩]] with
  | error e =>
      have hOk := congrArg Except.isOk hText
      change _ = false at hOk
      exact absurd hOk (by decide +kernel)
  | ok text =>
      rcases document_read_back hText with
        ⟨b, pieces, _, _, hRead, hPieces, hPoints⟩
      have hBackground : "<None>".toLower ≠ "none" :=
        (hasBackground_iff "<None>").mp (by decide)
      refine ⟨text, pieces, rfl, hRead, ?_, ?_, ?_, ?_⟩
      · rw [hPieces]
        simp [elements, titlePieces]
      · rw [hPieces, elements, backgroundPieces,
          if_neg hBackground]
        rfl
      · rw [hPieces, elements, backgroundPieces,
          if_neg hBackground]
        rfl
      · rw [hPoints]
        decide +kernel

end Svg

end Lindenmayer
