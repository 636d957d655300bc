import Lindenmayer.Proofs.Markup.Reading

/-
  What is read of a document.

  A document is written line by line, so that between the
  pieces of two lines there is a text: the line end and the
  spaces in front of the later line.

  Key definitions include:
    * `Markup.layout`
    * `Markup.Line.laidOut`
    * `Markup.Line.Proper`

  Correctness is proven by:
    * `Markup.document_eq_writePieces`
    * `Markup.read_document`
-/

namespace Lindenmayer

namespace Markup

------------------------------------------------------------
-- Layout
------------------------------------------------------------

/- The text in front of a line: a line end, and its spaces. -/
def layout
    (indent : Nat) : Piece :=
  .text (String.ofList ('\n' :: List.replicate indent ' '))

/- The pieces of a line with the text in front of it. -/
def Line.laidOut
    (l : Line) : List Piece :=
  layout l.indent :: l.pieces

/- Nothing in a layout has to be escaped. -/
@[simp] theorem toList_write_layout
    (indent : Nat) :
    (layout indent).write.toList =
      '\n' :: List.replicate indent ' ' := by
  have hSpaces (n : Nat) :
      (List.replicate n ' ').flatMap entity =
        List.replicate n ' ' := by
    induction n with
    | zero => rfl
    | succ n ih =>
        rw [List.replicate_succ, List.flatMap_cons, ih]
        rfl
  have hEscaped :
      ('\n' :: List.replicate indent ' ').flatMap entity =
        '\n' :: List.replicate indent ' ' := by
    rw [List.flatMap_cons, hSpaces]
    rfl
  rw [layout, Piece.write, escape, String.toList_ofList,
    String.toList_ofList, escapeChars_eq_flatMap, hEscaped]

@[simp] theorem writePieces_append
    (ps qs : List Piece) :
    writePieces (ps ++ qs) = writePieces ps ++ writePieces qs := by
  rw [writePieces, List.map_append, String.join_append]
  rfl

/-
  The line end of each line is written with the layout of the
  line after it.
-/
theorem lineEnd_append_document
    (ls : List Line) :
    "\n" ++ document ls =
      writePieces (ls.flatMap Line.laidOut ++ [layout 0]) := by
  induction ls with
  | nil => simp [document, writePieces, ← String.toList_inj]
  | cons l ls ih =>
      have hLine :
          "\n" ++ document (l :: ls) =
            (layout l.indent).write ++
              (writePieces l.pieces ++ ("\n" ++ document ls)) := by
        simp [document, Line.write, writePieces,
          ← String.toList_inj]
      rw [hLine, ih, List.flatMap_cons, List.append_assoc,
        Line.laidOut, List.cons_append, ← writePieces_append]
      simp [writePieces]

/- A document is written as the pieces of its layout. -/
theorem document_eq_writePieces
    (first : List Piece)
    (ls : List Line) :
    document (⟨0, first⟩ :: ls) =
      writePieces
        (first ++ ls.flatMap Line.laidOut ++ [layout 0]) := by
  rw [List.append_assoc, writePieces_append,
    ← lineEnd_append_document]
  simp [document, Line.write, writePieces, ← String.toList_inj]

------------------------------------------------------------
-- Reading
------------------------------------------------------------

/-
  A line is proper when it begins with a tag, and a tag
  follows each of its texts.
-/
def Line.Proper
    (l : Line) : Prop :=
  ∃ p ps, l.pieces = p :: ps ∧ p.isTag = true ∧ Tagged ps

/- The layout of a proper line is followed by its first tag. -/
theorem Line.Proper.tagged
    {l : Line}
    (hProper : l.Proper) :
    Tagged l.laidOut := by
  rcases hProper with ⟨p, ps, hPieces, hTag, hLater⟩
  rw [laidOut, hPieces]
  exact .textTag (by simp) hTag hLater

theorem tagged_laidOut
    {ls : List Line}
    (hProper : ∀ l ∈ ls, l.Proper) :
    Tagged (ls.flatMap Line.laidOut) := by
  induction ls with
  | nil => exact .nil
  | cons l ls ih =>
      rw [List.forall_mem_cons] at hProper
      exact hProper.1.tagged.append (ih hProper.2)

/- A document of proper lines is read back. -/
theorem read_document
    {first : List Piece}
    {ls : List Line}
    (hFirst : Tagged first)
    (hProper : ∀ l ∈ ls, l.Proper) :
    read (document (⟨0, first⟩ :: ls)) =
      some (first ++ ls.flatMap Line.laidOut ++ [layout 0]) := by
  rw [document_eq_writePieces]
  exact read_writePieces
    (hFirst.append (tagged_laidOut hProper)) (by simp)

end Markup

end Lindenmayer
