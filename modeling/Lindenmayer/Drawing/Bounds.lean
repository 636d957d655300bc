import Lindenmayer.Drawing.Polyline
import Lindenmayer.Error

/-
  This file defines the bounds of a drawing.

  Key definitions include:
    * `Bounds`
    * `Bounds.ofPolylines`
    * `Bounds.widen`
-/

namespace Lindenmayer

------------------------------------------------------------
-- Least and Greatest Numbers
------------------------------------------------------------

/-
  The least of some numbers, scanned in order: a number takes
  the place of the present one only when it is less.
-/
def leastFrom
    (x : Float)
    (xs : List Float) : Float :=
  xs.foldl (fun m y => if y < m then y else m) x

/-
  The greatest of some numbers, scanned in order: a number
  takes the place of the present one only when it is greater.
-/
def greatestFrom
    (x : Float)
    (xs : List Float) : Float :=
  xs.foldl (fun m y => if m < y then y else m) x

------------------------------------------------------------
-- Bounds
------------------------------------------------------------

/- The least and greatest coordinates of a drawing. -/
structure Bounds where
  minX : Float
  minY : Float
  maxX : Float
  maxY : Float
deriving DecidableEq

namespace Bounds

/- The bounds of a point and others. -/
def ofPoints
    (p : Point)
    (ps : List Point) : Bounds where
  minX := leastFrom p.x (ps.map Point.x)
  minY := leastFrom p.y (ps.map Point.y)
  maxX := greatestFrom p.x (ps.map Point.x)
  maxY := greatestFrom p.y (ps.map Point.y)

/- The bounds of all points of some polylines. -/
def ofPolylines
    (ls : List Polyline) : Except ConfigError Bounds :=
  match ls.flatMap Polyline.points with
  | [] => .error .nothingDrawn
  | p :: ps => .ok (ofPoints p ps)

/- The bounds with a margin on all sides. -/
def widen
    (b : Bounds)
    (margin : Float) : Bounds where
  minX := b.minX - margin
  minY := b.minY - margin
  maxX := b.maxX + margin
  maxY := b.maxY + margin

/- The width of the bounds. -/
def width
    (b : Bounds) : Float :=
  b.maxX - b.minX

/- The height of the bounds. -/
def height
    (b : Bounds) : Float :=
  b.maxY - b.minY

end Bounds

end Lindenmayer
