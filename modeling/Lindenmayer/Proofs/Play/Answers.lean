import Lindenmayer.Play
import Lindenmayer.Proofs.EventStream.Unfolding
import Lindenmayer.Proofs.Expansion.Generation

/-
  Playing is answering calls.

  A renderer that is played what a source yields answers the
  calls of these items one by one, and one call more to finish,
  until it refuses a call.

  Key definitions include:
    * `Renderer.answer`
    * `Pull.map`

  Correctness is proven by:
    * `Renderer.answer_append`
    * `Renderer.play_eq_answer`
    * `Source.yields_map`
    * `Unfolding.start_depth_yields`
    * `Unfolding.start_iterations_yields`
-/

------------------------------------------------------------
-- Answers
------------------------------------------------------------

namespace Lindenmayer

namespace Renderer

/- Answer calls in order until one is refused. -/
def answer
    (r : Renderer) : List Call → Called Renderer
  | [] => ⟨r, none⟩
  | c :: calls =>
      match r.call c with
      | ⟨s, some e⟩ => ⟨s, some e⟩
      | ⟨s, none⟩ => s.answer calls

/- Later calls are answered if no earlier one was refused. -/
theorem answer_append
    (r : Renderer)
    (calls others : List Call) :
    r.answer (calls ++ others) =
      match r.answer calls with
      | ⟨s, some e⟩ => ⟨s, some e⟩
      | ⟨s, none⟩ => s.answer others := by
  induction calls generalizing r with
  | nil => rfl
  | cons c calls ih =>
      rw [List.cons_append, answer, answer]
      rcases r.call c with ⟨s, _ | e⟩
      · exact ih s
      · rfl

@[simp] theorem answer_singleton
    (r : Renderer)
    (c : Call) :
    r.answer [c] = r.call c := by
  rw [answer]
  rcases r.call c with ⟨s, _ | e⟩ <;> rfl

/- A turtle goes on with the calls that follow. -/
theorem answer_turtle_of_ok
    {t u : Turtle}
    {c : Call}
    (hCall : t.call c = .ok u)
    (calls : List Call) :
    (turtle t).answer (c :: calls) =
      (turtle u).answer calls := by
  simp [answer, Renderer.call, hCall]

/- A turtle stays where it was when it refuses a call. -/
theorem answer_turtle_of_error
    {t : Turtle}
    {c : Call}
    {e : RenderError}
    (hCall : t.call c = .error e)
    (calls : List Call) :
    (turtle t).answer (c :: calls) =
      ⟨turtle t, some e⟩ := by
  simp [answer, Renderer.call, hCall]

------------------------------------------------------------
-- Playing
------------------------------------------------------------

variable {σ α : Type} [Source σ (Item α)]

/-
  To play a source is to answer the calls of the items that it
  yields, and then to finish.
-/
theorem play_eq_answer
    (meaning : α → Instruction)
    (r : Renderer)
    (s : σ)
    (items : List (Item α))
    (hYields : Source.Yields s items) :
    play meaning r s =
      r.answer
        (items.map (Item.toCall meaning) ++ [.finish]) := by
  induction items generalizing r s with
  | nil =>
      have hEnded :=
        ((Source.yields_nil_iff s).mp hYields).1
      rw [play]
      split <;> rename_i hPull <;> rw [hPull] at hEnded
      · cases hEnded
      · exact (answer_singleton r .finish).symm
      · cases hEnded
  | cons a items ih =>
      rcases (Source.yields_cons_iff s a items).mp hYields with
        ⟨hItem, hLater⟩
      rw [play]
      split <;> rename_i hPull <;> rw [hPull] at hItem
      · cases hItem
      · cases hItem
      · cases hItem
        rw [hPull] at hLater
        rw [List.map_cons, List.cons_append, answer]
        rcases r.call (a.toCall meaning) with ⟨r', _ | e⟩
        · exact ih r' _ hLater
        · rfl

/- A list of items yields itself. -/
theorem yields_list
    (items : List (Item α)) :
    Source.Yields items items := by
  apply Source.yields_of_simulation
    (fun (s : List (Item α)) items => s = items)
  · rintro s rfl
    exact ⟨rfl, rfl⟩
  · rintro s a items rfl
    exact ⟨rfl, rfl⟩
  · rfl

theorem play_list
    (meaning : α → Instruction)
    (r : Renderer)
    (items : List (Item α)) :
    play meaning r items =
      r.answer
        (items.map (Item.toCall meaning) ++ [.finish]) :=
  play_eq_answer meaning r items items (yields_list items)

end Renderer

------------------------------------------------------------
-- Unfoldings
------------------------------------------------------------

/- What a pull gives, its item changed. -/
def Pull.map
    {α β : Type}
    (f : α → β) : Pull α → Pull β
  | .item a => .item (f a)
  | .ended => .ended
  | .failed e => .failed e

/-
  A source that passes on the pulls of another one yields the
  same items, changed alike.
-/
theorem Source.yields_map
    {σ τ α β : Type} [Source σ α] [Source τ β]
    (wrap : σ → τ)
    (f : α → β)
    (hPull :
      ∀ s, pull (wrap s) =
        ((pull s).1.map f, wrap (pull s).2))
    {s : σ}
    {items : List α}
    (hYields : Yields s items) :
    Yields (wrap s) (items.map f) := by
  have hAfter :
      ∀ k s, after k (wrap s) = wrap (after k s) := by
    intro k
    induction k with
    | zero => exact fun s => rfl
    | succ k ih =>
        intro s
        rw [after, after, hPull]
        exact ih (pull s).2
  intro k
  rw [hAfter, hPull, hYields k, List.getElem?_map]
  cases items[k]? <;> rfl

namespace Unfolding

variable {α : Type} [DecidableEq α]

/- What is pulled is that of the stream beneath. -/
theorem pull_nested
    (s : EventStream α) :
    Source.pull (nested s) =
      ((Source.pull s).1.map Item.event,
        nested (Source.pull s).2) := by
  change pull (nested s) = _
  rw [pull]
  rcases Source.pull s with ⟨_ | _ | _, t⟩ <;> rfl

theorem pull_flat
    (e : Expansion α) :
    Source.pull (flat e) =
      ((Source.pull e).1.map Item.symbol,
        flat (Source.pull e).2) := by
  change pull (flat e) = _
  rw [pull]
  rcases Source.pull e with ⟨_ | _ | _, t⟩ <;> rfl

/- A stream of events is unfolded to its events. -/
theorem nested_yields
    {s : EventStream α}
    {events : List (Event α)}
    (hYields : Source.Yields s events) :
    Source.Yields (nested s) (events.map Item.event) :=
  Source.yields_map nested Item.event pull_nested hYields

/- An expansion is unfolded to its symbols. -/
theorem flat_yields
    {e : Expansion α}
    {word : List α}
    (hYields : Source.Yields e word) :
    Source.Yields (flat e) (word.map Item.symbol) :=
  Source.yields_map flat Item.symbol pull_flat hYields

/-
  Unfolding a word up to a depth gives the tree of its lead
  symbol in a frame of its own.
-/
theorem start_depth_yields
    (rules : RuleStore α)
    (a : α)
    (rest : List α)
    (maxDepth : Int)
    (hDepth : 1 ≤ maxDepth) :
    ∃ u, start rules (a :: rest) (.depth maxDepth) = .ok u ∧
      Source.Yields u
        (List.map Item.event
          (.push ::
            (Event.tree rules (maxDepth.toNat - 1) a ++
              [.pop]))) := by
  rw [start,
    EventStream.start_eq_ok rules a rest maxDepth hDepth,
    ← EventStream.remaining_fresh]
  exact ⟨_, rfl,
    nested_yields (EventStream.yields_remaining _)⟩

/- Unfolding a word for some rounds gives their last word. -/
theorem start_iterations_yields
    (rules : RuleStore α)
    (word : List α)
    (n : Nat) :
    ∃ u, start rules word (.iterations n) = .ok u ∧
      Source.Yields u
        ((rules.rounds n word).map Item.symbol) :=
  ⟨_, rfl, flat_yields (Expansion.yields_rounds rules word n)⟩

end Unfolding

end Lindenmayer
