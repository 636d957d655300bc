import Lindenmayer.Config
import Lindenmayer.Decimal.Fixed
import Lindenmayer.Drawing.Bounds
import Lindenmayer.Drawing.Markup

/-
  This file defines the SVG document of a drawing.

  Key definitions include:
    * `Svg.number`
    * `Svg.Options`
    * `Svg.lines`
    * `Svg.document`
    * `Svg.documentAt`

  Correctness is proven by:
    * `Svg.documentAt_natCast`
-/

namespace Lindenmayer

namespace Svg

open Markup
open scoped Arithmetic

------------------------------------------------------------
-- Numbers
------------------------------------------------------------

/- Remove the zeros a numeral ends with, then its point. -/
def trimZeros
    (cs : List Char) : List Char :=
  ((cs.reverse.dropWhile (· == '0')).dropWhile
    (· == '.')).reverse

/-
  A number with so many places, without zeros after the last
  other place.  A zero has no sign, but the sign of a number
  that rounds to zero is kept.  Any number of places is taken
  here; a document with too many of them is refused before a
  number is written, see `precision`.
-/
def number
    (precision : Nat)
    (x : Float) : String :=
  let y := if x == 0.0 then 0.0 else x
  let cs := Decimal.fixed precision y
  let trimmed := if cs.contains '.' then trimZeros cs else cs
  String.ofList (if trimmed.isEmpty then ['0'] else trimmed)

------------------------------------------------------------
-- Options
------------------------------------------------------------

/-
  How a drawing is written: the margin around it, the number
  of decimal places, whether it is flipped, as the turtle's
  plane has its second axis upwards, and its title.
-/
structure Options where
  margin : Float := 10.0
  precision : Nat := 3
  flip : Bool := true
  title : Option String := none
deriving DecidableEq

------------------------------------------------------------
-- Elements
------------------------------------------------------------

/- The bounds of a drawing, if they enclose an area. -/
def frame
    (margin : Float)
    (ls : List Polyline) : Except ConfigError Bounds :=
  match Bounds.ofPolylines ls with
  | .error e => .error e
  | .ok b =>
      let w := b.widen margin
      if 0.0 < w.width ∧ 0.0 < w.height then .ok w
      else .error .degenerateBounds

/- The declaration a document begins with. -/
def declaration : Piece :=
  .declaration
    [⟨"version", "1.0"⟩, ⟨"encoding", "UTF-8"⟩]

/- The part of the plane that is seen. -/
def viewBox
    (precision : Nat)
    (b : Bounds) : String :=
  " ".intercalate
    ([b.minX, b.minY, b.width, b.height].map
      (number precision))

/- The tag that opens the document's element. -/
def root
    (precision : Nat)
    (b : Bounds) : Piece :=
  .opening "svg"
    [⟨"xmlns", "http://www.w3.org/2000/svg"⟩,
      ⟨"version", "1.1"⟩,
      ⟨"viewBox", viewBox precision b⟩]

/- The line of the title, if it is not empty. -/
def titleLines : Option String → List Line
  | none => []
  | some s =>
      if s.isEmpty then []
      else
        [⟨2, [.opening "title" [], .text s,
          .closing "title"]⟩]

/-
  Whether a background is to be painted: not when it is the
  word none, in letters of either case.  No letter beyond
  ASCII has a lower case in that word.
-/
def hasBackground
    (background : String) : Bool :=
  background.toList.map Char.toLower != "none".toList

/- The line of the background. -/
def backgroundLines
    (precision : Nat)
    (background : String)
    (b : Bounds) : List Line :=
  if hasBackground background then
    [⟨2,
      [.alone "rect"
        [⟨"x", number precision b.minX⟩,
          ⟨"y", number precision b.minY⟩,
          ⟨"width", number precision b.width⟩,
          ⟨"height", number precision b.height⟩,
          ⟨"fill", background⟩]]⟩]
  else []

/- A point as it is written in a list of points. -/
def pointText
    (precision : Nat)
    (p : Point) : String :=
  number precision p.x ++ "," ++ number precision p.y

/- The tag of a polyline. -/
def polyline
    (precision : Nat)
    (pen : String)
    (l : Polyline) : Piece :=
  .alone "polyline"
    [⟨"points",
        " ".intercalate
          (l.points.map (pointText precision))⟩,
      ⟨"stroke", pen⟩,
      ⟨"stroke-width", number precision l.width⟩,
      ⟨"fill", "none"⟩,
      ⟨"stroke-linecap", "round"⟩,
      ⟨"stroke-linejoin", "round"⟩]

/- The tag of the group that flips a drawing. -/
def flipped
    (precision : Nat)
    (b : Bounds) : Piece :=
  .opening "g"
    [⟨"transform",
      "translate(0," ++ number precision (b.minY + b.maxY) ++
        ") scale(1,-1)"⟩]

/- The lines of the polylines, flipped or not. -/
def drawingLines
    (o : Options)
    (pen : String)
    (b : Bounds)
    (ls : List Polyline) : List Line :=
  if o.flip then
    ⟨2, [flipped o.precision b]⟩ ::
      (ls.map fun l => ⟨4, [polyline o.precision pen l]⟩) ++
      [⟨2, [.closing "g"]⟩]
  else
    ls.map fun l => ⟨2, [polyline o.precision pen l]⟩

------------------------------------------------------------
-- Documents
------------------------------------------------------------

/- The lines of the document of a drawing in its frame. -/
def lines
    (o : Options)
    (c : Config)
    (b : Bounds)
    (ls : List Polyline) : List Line :=
  [⟨0, [declaration]⟩, ⟨0, [root o.precision b]⟩] ++
    titleLines o.title ++
    backgroundLines o.precision c.background b ++
    drawingLines o c.pen b ls ++
    [⟨0, [.closing "svg"]⟩]

/- The document of a drawing, if it encloses an area. -/
def document
    (o : Options)
    (c : Config)
    (ls : List Polyline) : Except ConfigError String :=
  match frame o.margin ls with
  | .error e => .error e
  | .ok b => .ok (Markup.document (lines o c b ls))

------------------------------------------------------------
-- Precisions
------------------------------------------------------------

/- Why no number is written with a precision. -/
inductive PrecisionError where
  | missing
  | tooGreat
  | tooLong
deriving DecidableEq, Repr

/- The wording of a precision error. -/
def PrecisionError.message : PrecisionError → String
  | .missing => "Format specifier missing precision"
  | .tooGreat => "precision too big"
  | .tooLong => "Too many decimal digits in format string"

/- A precision is a number of places that 31 bits hold. -/
def precision
    (p : Int) : Except PrecisionError Nat :=
  if p < 0 then .error .missing
  else if 2 ^ (63 : Nat) ≤ p then .error .tooLong
  else if 2 ^ (31 : Nat) ≤ p then .error .tooGreat
  else .ok p.toNat

/- Why no document is written. -/
inductive Refusal where
  | config (e : ConfigError)
  | precision (e : PrecisionError)
deriving DecidableEq, Repr

/-
  The document of a drawing, with a precision in place of
  that of the options.
-/
def documentAt
    (p : Int)
    (o : Options)
    (c : Config)
    (ls : List Polyline) : Except Refusal String :=
  match frame o.margin ls with
  | .error e => .error (.config e)
  | .ok b =>
      match precision p with
      | .error e => .error (.precision e)
      | .ok n =>
          .ok
            (Markup.document
              (lines { o with precision := n } c b ls))

/- A precision that is a natural number is taken as it is. -/
theorem documentAt_natCast
    (n : Nat)
    (hFits : n < 2 ^ (31 : Nat))
    (o : Options)
    (c : Config)
    (ls : List Polyline) :
    documentAt n o c ls =
      match document { o with precision := n } c ls with
      | .ok s => .ok s
      | .error e => .error (.config e) := by
  have hPrecision : precision n = .ok n := by
    unfold precision
    rw [if_neg (by omega), if_neg (by omega),
      if_neg (by omega)]
    rfl
  unfold documentAt document
  cases frame o.margin ls with
  | error e => rfl
  | ok b => simp only [hPrecision]

end Svg

end Lindenmayer
