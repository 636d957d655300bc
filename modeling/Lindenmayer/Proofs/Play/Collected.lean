import Lindenmayer.Proofs.Play.Answers

/-
  The text that a collector writes is a drawing program.

  Every glyph stands for an instruction by its standard
  meaning.  The calls of a text that was collected are the
  calls that it was collected from, but for those that do
  nothing, and a branch is opened and closed by instructions.

  Key definitions include:
    * `Call.redrawn`
    * `Renderer.glyphs`

  Correctness is proven by:
    * `Call.redrawn_eq_glyph`
    * `Renderer.answer_collector`
    * `Renderer.answer_redrawn`
    * `Renderer.collected_text_draws_same`
-/

------------------------------------------------------------
-- Glyphs
------------------------------------------------------------

namespace Lindenmayer

/- The calls that the glyph of a call stands for. -/
def Call.redrawn : Call → List Call
  | .push => [.render .push]
  | .pop => [.render .pop]
  | .render .noop => []
  | .render i => [.render i]
  | .finish => []

/-
  Glyphs have the standard meaning of what they are written
  for.
-/
theorem Call.redrawn_eq_glyph
    (c : Call) :
    (Symbol.ofText c.glyph).map (fun a =>
        Call.render
          (InstructionTable.standardSymbols.meaning a)) =
      c.redrawn := by
  cases c with
  | push => decide
  | pop => decide
  | finish => decide
  | render i => cases i <;> decide

namespace Renderer

/- The text of the glyphs of calls. -/
def glyphs
    (calls : List Call) : String :=
  String.join (calls.map Call.glyph)

@[simp] theorem glyphs_cons
    (c : Call)
    (calls : List Call) :
    glyphs (c :: calls) = c.glyph ++ glyphs calls :=
  String.join_cons

@[simp] theorem glyphs_append
    (calls others : List Call) :
    glyphs (calls ++ others) =
      glyphs calls ++ glyphs others := by
  simp [glyphs]

/- A text of glyphs is played as the calls redrawn. -/
theorem redrawn_eq_glyphs
    (calls : List Call) :
    ((Symbol.ofText (glyphs calls)).map Item.symbol).map
        (Item.toCall
          InstructionTable.standardSymbols.meaning) =
      calls.flatMap Call.redrawn := by
  induction calls with
  | nil => rfl
  | cons c calls ih =>
      rw [List.flatMap_cons, ← ih, ← c.redrawn_eq_glyph,
        glyphs_cons]
      simp [Symbol.ofText, Item.toCall]

/- Calls that are redrawn have the same glyphs. -/
theorem glyphs_redrawn
    (calls : List Call) :
    glyphs (calls.flatMap Call.redrawn) = glyphs calls := by
  have hCall :
      ∀ c : Call, glyphs c.redrawn = c.glyph := by
    intro c
    cases c with
    | push => rfl
    | pop => rfl
    | finish => rfl
    | render i => cases i <;> rfl
  induction calls with
  | nil => rfl
  | cons c calls ih =>
      rw [List.flatMap_cons, glyphs_append, glyphs_cons,
        hCall, ih]

------------------------------------------------------------
-- Collectors and Turtles
------------------------------------------------------------

/- A collector refuses nothing and writes all glyphs. -/
@[simp] theorem answer_collector
    (written : String)
    (calls : List Call) :
    (collector written).answer calls =
      ⟨collector (written ++ glyphs calls), none⟩ := by
  induction calls generalizing written with
  | nil => simp [answer, glyphs]
  | cons c calls ih =>
      rw [answer, Renderer.call, glyphs_cons]
      simp only [ih, String.append_assoc]

/- A turtle answers a call as it answers it redrawn. -/
theorem answer_redrawn_cons
    (t : Turtle)
    (c : Call)
    (hCall : c ≠ .finish)
    (calls : List Call) :
    (turtle t).answer (c.redrawn ++ calls) =
      (turtle t).answer (c :: calls) := by
  cases c with
  | push => rfl
  | pop => rfl
  | finish => exact absurd rfl hCall
  | render i =>
      cases i with
      | noop =>
          have hNoop : t.call (.render .noop) = .ok t := rfl
          exact (answer_turtle_of_ok hNoop calls).symm
      | _ => rfl

/-
  A turtle answers calls as it answers them redrawn, up to the
  first one that it refuses.
-/
theorem answer_redrawn
    (t : Turtle)
    (calls : List Call)
    (hCalls : Call.finish ∉ calls)
    (others : List Call) :
    (turtle t).answer
        (calls.flatMap Call.redrawn ++ others) =
      (turtle t).answer (calls ++ others) := by
  induction calls generalizing t with
  | nil => rfl
  | cons c calls ih =>
      rw [List.mem_cons, not_or] at hCalls
      rw [List.flatMap_cons, List.append_assoc,
        answer_redrawn_cons t c (Ne.symm hCalls.1),
        List.cons_append]
      cases hCall : t.call c with
      | ok u =>
          rw [answer_turtle_of_ok hCall,
            answer_turtle_of_ok hCall]
          exact ih u hCalls.2
      | error e =>
          rw [answer_turtle_of_error hCall,
            answer_turtle_of_error hCall]

/-
  For every sequence of items and every table, the text that
  a collector writes draws the same as the items: played by
  the standard meanings, its characters leave every turtle,
  and so every fresh one, just as the items do by the table,
  refused for the same cause if at all.  A collector writes
  the text itself when it is played the text.
-/
theorem collected_text_draws_same
    {α : Type} [DecidableEq α]
    (table : InstructionTable α)
    (items : List (Item α)) :
    ∃ text,
      play table.meaning (collector "") items =
        ⟨collector text, none⟩ ∧
      (∀ t,
        play InstructionTable.standardSymbols.meaning
            (turtle t)
            ((Symbol.ofText text).map Item.symbol) =
          play table.meaning (turtle t) items) ∧
      play InstructionTable.standardSymbols.meaning
          (collector "")
          ((Symbol.ofText text).map Item.symbol) =
        ⟨collector text, none⟩ := by
  have hCalls :
      Call.finish ∉
        items.map (Item.toCall table.meaning) := by
    rw [List.mem_map]
    rintro ⟨_ | _ | _ | _, _, hFinish⟩ <;> cases hFinish
  refine
    ⟨glyphs (items.map (Item.toCall table.meaning)),
      ?_, fun t => ?_, ?_⟩
  · rw [play_list, answer_collector, glyphs_append]
    simp [glyphs, Call.glyph]
  · rw [play_list, play_list, redrawn_eq_glyphs,
      answer_redrawn t _ hCalls]
  · rw [play_list, answer_collector, redrawn_eq_glyphs,
      glyphs_append, glyphs_redrawn]
    simp [glyphs, Call.glyph]

end Renderer

end Lindenmayer
