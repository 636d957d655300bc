/-
  This file defines points, polylines, and the buffer in
  which a drawing is collected.

  Key definitions include:
    * `Point`
    * `Polyline`
    * `PolylineBuffer`
    * `PolylineBuffer.startNew`
    * `PolylineBuffer.addPoint`

  Correctness is proven by:
    * `PolylineBuffer.polylines_startNew`
    * `Polyline.points_add`
-/

namespace Lindenmayer

------------------------------------------------------------
-- Points
------------------------------------------------------------

/- A point of the plane. -/
structure Point where
  x : Float
  y : Float
deriving DecidableEq

namespace Point

/-
  Whether two points have equal coordinates, as numbers are
  compared: zeros of both signs are equal, and what is not a
  number equals nothing.
-/
def same
    (p q : Point) : Bool :=
  p.x == q.x && p.y == q.y

end Point

------------------------------------------------------------
-- Polylines
------------------------------------------------------------

/-
  A polyline has a width and a trail of points, the newest
  first.
-/
structure Polyline where
  width : Float
  trail : List Point
deriving DecidableEq

namespace Polyline

/- The points of a polyline in order. -/
def points
    (l : Polyline) : List Point :=
  l.trail.reverse

/- The polyline through points in order. -/
def ofPoints
    (width : Float)
    (ps : List Point) : Polyline :=
  ⟨width, ps.reverse⟩

/- Add a point, unless it is where the polyline ends. -/
def add
    (l : Polyline)
    (p : Point) : Polyline :=
  match l.trail with
  | [] => { l with trail := [p] }
  | q :: rest =>
      if q.same p then l
      else { l with trail := p :: q :: rest }

/- A polyline passes through the points it was made of. -/
@[simp] theorem points_ofPoints
    (width : Float)
    (ps : List Point) :
    (ofPoints width ps).points = ps := by
  simp [ofPoints, points]

/- An added point is the last one, or was it already. -/
theorem points_add
    (l : Polyline)
    (p : Point) :
    (l.add p).points =
      if l.points.getLast?.any (fun q => q.same p) then
        l.points
      else l.points ++ [p] := by
  rcases l with ⟨width, trail⟩
  cases trail with
  | nil => simp [add, points]
  | cons q rest =>
      by_cases hSame : q.same p = true <;>
        simp [add, points, hSame]

end Polyline

------------------------------------------------------------
-- Buffers
------------------------------------------------------------

/- A buffer of polylines, the newest first. -/
structure PolylineBuffer where
  trail : List Polyline
deriving DecidableEq

namespace PolylineBuffer

/- The buffered polylines in order. -/
def polylines
    (b : PolylineBuffer) : List Polyline :=
  b.trail.reverse

/- The buffer that holds polylines in order. -/
def ofList
    (ls : List Polyline) : PolylineBuffer :=
  ⟨ls.reverse⟩

/- Begin a polyline at a point. -/
def startNew
    (b : PolylineBuffer)
    (p : Point)
    (width : Float) : PolylineBuffer :=
  ⟨⟨width, [p]⟩ :: b.trail⟩

/- The polyline begun last. -/
def current?
    (b : PolylineBuffer) : Option Polyline :=
  b.trail.head?

/- Add a point to the current polyline. -/
def addPoint?
    (b : PolylineBuffer)
    (p : Point) : Option PolylineBuffer :=
  match b.trail with
  | [] => none
  | l :: rest => some ⟨l.add p :: rest⟩

/- A new polyline stands at the end. -/
@[simp] theorem polylines_startNew
    (b : PolylineBuffer)
    (p : Point)
    (width : Float) :
    (b.startNew p width).polylines =
      b.polylines ++ [⟨width, [p]⟩] := by
  simp [startNew, polylines]

/- A point can be added once a polyline was begun. -/
@[simp] theorem addPoint?_eq_none_iff
    (b : PolylineBuffer)
    (p : Point) :
    b.addPoint? p = none ↔ b.current? = none := by
  rcases b with ⟨trail⟩
  cases trail <;> simp [addPoint?, current?]

end PolylineBuffer

end Lindenmayer
