import Lindenmayer.Proofs.Source.Lockstep

/-
  Sources that refuse.

  A source refuses when its first pull fails.  Whoever asks it
  for an item is refused, with nothing taken, collected or
  played before.  Whoever asks for none does not notice.

  Key definitions include:
    * `Source.Refuses`
    * `Bound.isInvalid`
    * `Bound.refusal`

  Correctness is proven by:
    * `Source.Refuses.take_eq`
    * `Source.Refuses.collect_eq`
    * `Source.Refuses.play_eq`
    * `Source.Refuses.limited`
    * `Limited.yields_none`
    * `Unfolding.start_of_isInvalid`
-/

------------------------------------------------------------
-- Refusing Sources
------------------------------------------------------------

namespace Lindenmayer

namespace Source

variable {σ α : Type} [Source σ α]

/- A source refuses when its first pull fails. -/
def Refuses
    (s : σ)
    (e : ConfigError) : Prop :=
  (pull s).1 = .failed e

namespace Refuses

variable {s : σ} {e : ConfigError}

theorem exists_pull
    (hRefuses : Refuses s e) :
    ∃ t, pull s = (.failed e, t) :=
  ⟨(pull s).2, Prod.ext hRefuses rfl⟩

theorem take_eq
    (hRefuses : Refuses s e)
    {n : Nat}
    (hAsked : 0 < n) :
    (take n s).1 = ([], some e) := by
  rcases hRefuses.exists_pull with ⟨t, hPull⟩
  cases n with
  | zero => cases hAsked
  | succ n => simp only [take, hPull]

theorem collect_eq
    (hRefuses : Refuses s e) :
    collect s = ([], some e) := by
  rcases hRefuses.exists_pull with ⟨t, hPull⟩
  simp only [collect, collectFrom_eq_match, hPull]

/- A limit that allows for an item does not hide a refusal. -/
theorem limited
    (hRefuses : Refuses s e)
    {left : Option Nat}
    (hAllowed : left ≠ some 0) :
    Refuses (⟨s, left⟩ : Limited σ) e := by
  rcases left with _ | _ | n
  · exact hRefuses
  · exact absurd rfl hAllowed
  · exact hRefuses

end Refuses

end Source

/- A renderer is left as it is. -/
theorem Source.Refuses.play_eq
    {σ α : Type}
    [Source σ (Item α)]
    {s : σ}
    {e : ConfigError}
    (hRefuses : Refuses s e)
    (meaning : α → Instruction)
    (r : Renderer) :
    r.play meaning s = ⟨r, some (.config e)⟩ := by
  rcases hRefuses.exists_pull with ⟨t, hPull⟩
  simp only [Renderer.play_eq_match, hPull]

/- A limit of zero does: the source is not pulled. -/
theorem Limited.yields_none
    {σ α : Type}
    [Source σ α]
    (s : σ) :
    Source.Yields (⟨s, some 0⟩ : Limited σ) ([] : List α) := by
  apply Source.yields_of_simulation
    (fun (s : Limited σ) items => s.left = some 0 ∧ items = [])
  · rintro ⟨s, _⟩ ⟨rfl, _⟩
    exact ⟨rfl, rfl, rfl⟩
  · rintro s a items ⟨_, hItems⟩
    cases hItems
  · exact ⟨rfl, rfl⟩

------------------------------------------------------------
-- Invalid Bounds
------------------------------------------------------------

namespace Bound

/- Whether a bound is too small for any unfolding. -/
def isInvalid : Bound → Bool
  | .depth d => decide (d < 1)
  | .iterations n => decide (n < 0)

/- The cause that a bound is refused for. -/
def refusal : Bound → ConfigError
  | .depth _ => .depthBelowOne
  | .iterations _ => .negativeIterations

end Bound

/-
  With an invalid depth no unfolding is started.  With an
  invalid number of iterations one is started, and refuses.
-/
theorem Unfolding.start_of_isInvalid
    {α : Type}
    [DecidableEq α]
    {b : Bound}
    (hInvalid : b.isInvalid = true)
    (rules : RuleStore α)
    (seed : List α) :
    (∃ d, b = .depth d) ∧
        start rules seed b = .error b.refusal ∨
      (∃ n, b = .iterations n) ∧
        ∃ u, start rules seed b = .ok u ∧
          Source.Refuses u b.refusal := by
  cases b with
  | depth d =>
      have hSmall : d < 1 := of_decide_eq_true hInvalid
      refine .inl ⟨⟨d, rfl⟩, ?_⟩
      simp only [start, EventStream.start, if_pos hSmall]
      rfl
  | iterations n =>
      have hNegative : n < 0 := of_decide_eq_true hInvalid
      refine .inr ⟨⟨n, rfl⟩, _, rfl, ?_⟩
      simp [Source.Refuses, Source.pull, pull, Expansion.pull,
        hNegative, Bound.refusal]

end Lindenmayer
