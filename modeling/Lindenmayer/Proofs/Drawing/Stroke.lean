import Lindenmayer.Drawing.Polyline
import Lindenmayer.Proofs.Number.Comparison

/-
  The strokes that polylines are made of.

  A polyline draws a stroke from each of its points to the
  next.  Adding a point to a polyline draws one more stroke,
  unless the polyline ends there already.

  Key definitions include:
    * `Point.Alike`
    * `Stroke`
    * `Stroke.same`
    * `Stroke.Alike`
    * `Polyline.strokes`

  Correctness is proven by:
    * `Point.Alike.same_congr`
    * `Polyline.strokes_add`
    * `Polyline.exists_add_eq`
    * `Polyline.flatMap_strokes_filter`
-/

------------------------------------------------------------
-- Points
------------------------------------------------------------

namespace Lindenmayer

namespace Point

/- The coordinates of a point are numbers. -/
def IsNumeric
    (p : Point) : Prop :=
  p.x.isNaN = false ∧ p.y.isNaN = false

/- Points with alike coordinates. -/
def Alike
    (p q : Point) : Prop :=
  Number.Alike p.x q.x ∧ Number.Alike p.y q.y

namespace Alike

theorem refl
    (p : Point) :
    p.Alike p :=
  ⟨.refl p.x, .refl p.y⟩

/- Points that are the same are alike. -/
theorem of_same
    {p q : Point}
    (hSame : p.same q = true) :
    p.Alike q := by
  rw [Point.same, Bool.and_eq_true] at hSame
  exact ⟨.inr hSame.1, .inr hSame.2⟩

/- No comparison tells alike points apart. -/
theorem same_congr
    {p p' q q' : Point}
    (hP : p.Alike p')
    (hQ : q.Alike q') :
    p.same q = p'.same q' := by
  rw [Point.same, Point.same, hP.1.beq_congr hQ.1,
    hP.2.beq_congr hQ.2]

theorem same
    {p q : Point}
    (hAlike : p.Alike q)
    (hNumeric : q.IsNumeric) :
    p.same q = true := by
  rw [Point.same, Bool.and_eq_true]
  exact ⟨hAlike.1.beq hNumeric.1, hAlike.2.beq hNumeric.2⟩

end Alike

end Point

------------------------------------------------------------
-- Strokes
------------------------------------------------------------

/- A stroke from a point to another, of some width. -/
structure Stroke where
  source : Point
  target : Point
  width : Float
deriving DecidableEq

namespace Stroke

/-
  Whether two strokes have equal ends and widths, as numbers
  are compared.
-/
def same
    (s t : Stroke) : Bool :=
  s.source.same t.source && s.target.same t.target &&
    s.width == t.width

/- Strokes with alike ends and widths. -/
structure Alike
    (s t : Stroke) : Prop where
  source : s.source.Alike t.source
  target : s.target.Alike t.target
  width : Number.Alike s.width t.width

/- The ends and the width of a stroke are numbers. -/
structure IsNumeric
    (s : Stroke) : Prop where
  source : s.source.IsNumeric
  target : s.target.IsNumeric
  width : s.width.isNaN = false

theorem Alike.same
    {s t : Stroke}
    (hAlike : s.Alike t)
    (hNumeric : t.IsNumeric) :
    s.same t = true := by
  rw [Stroke.same, Bool.and_eq_true, Bool.and_eq_true]
  exact
    ⟨⟨hAlike.source.same hNumeric.source,
      hAlike.target.same hNumeric.target⟩,
      hAlike.width.beq hNumeric.width⟩

end Stroke

------------------------------------------------------------
-- Strokes of Polylines
------------------------------------------------------------

namespace Polyline

/- The strokes of a polyline, point by point. -/
def strokes
    (l : Polyline) : List Stroke :=
  (l.points.zip l.points.tail).map fun r =>
    ⟨r.1, r.2, l.width⟩

/- A last element makes one more pair of neighbours. -/
theorem zip_tail_concat
    {α : Type}
    (xs : List α)
    (a b : α) :
    (xs ++ [a, b]).zip (xs ++ [a, b]).tail =
      (xs ++ [a]).zip (xs ++ [a]).tail ++ [(a, b)] := by
  induction xs with
  | nil => rfl
  | cons x xs ih =>
      cases xs with
      | nil => rfl
      | cons y xs => simpa using ih

/- One more point draws a stroke from the last one. -/
theorem strokes_extended
    (width : Float)
    (p q : Point)
    (trail : List Point) :
    strokes ⟨width, q :: p :: trail⟩ =
      strokes ⟨width, p :: trail⟩ ++ [⟨p, q, width⟩] := by
  have hPairs := zip_tail_concat trail.reverse p q
  simp only [strokes, points, List.reverse_cons,
    List.append_assoc, List.singleton_append, hPairs,
    List.map_append, List.map_cons, List.map_nil]

/-
  Adding a point draws a stroke to it, unless the polyline
  ends there.
-/
theorem strokes_add
    (width : Float)
    (p q : Point)
    (trail : List Point) :
    (add ⟨width, p :: trail⟩ q).strokes =
      strokes ⟨width, p :: trail⟩ ++
        if p.same q then [] else [⟨p, q, width⟩] := by
  cases hSame : p.same q with
  | true => simp [add, hSame]
  | false => simp [add, hSame, strokes_extended]

/- The polyline then ends at a point alike to the added one. -/
theorem exists_add_eq
    (width : Float)
    (p q : Point)
    (trail : List Point) :
    ∃ e trail',
      add ⟨width, p :: trail⟩ q = ⟨width, e :: trail'⟩ ∧
        e.Alike q := by
  cases hSame : p.same q with
  | true =>
      exact ⟨p, trail, by simp [add, hSame],
        .of_same hSame⟩
  | false =>
      exact ⟨q, p :: trail, by simp [add, hSame],
        .refl q⟩

/- Polylines that are too short draw nothing. -/
theorem flatMap_strokes_filter
    (ls : List Polyline) :
    (ls.filter fun l => decide (2 ≤ l.trail.length)).flatMap
        strokes =
      ls.flatMap strokes := by
  induction ls with
  | nil => rfl
  | cons l ls ih =>
      by_cases hLong : 2 ≤ l.trail.length
      · simp [hLong, ih]
      · have hNone : l.strokes = [] := by
          rcases l with ⟨width, _ | ⟨p, _ | ⟨q, trail⟩⟩⟩
          · rfl
          · rfl
          · simp at hLong
        simp [hLong, ih, hNone]

end Polyline

end Lindenmayer
