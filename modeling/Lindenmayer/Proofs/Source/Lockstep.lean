import Lindenmayer.Play
import Lindenmayer.Proofs.Source.Yields

/-
  Sources in lockstep.

  Two sources run in lockstep when a relation that the pulls
  keep makes them give the same, pull by pull.  Whatever uses
  a source by pulling alone cannot tell them apart.

  Key definitions include:
    * `Source.Lockstep`
    * `Limited.Related`

  Correctness is proven by:
    * `Source.pulls_induction`
    * `Source.Lockstep.pull_after`
    * `Source.Lockstep.collect_eq`
    * `Source.Lockstep.limited`
    * `Source.Lockstep.play_eq`
-/

------------------------------------------------------------
-- One Pull
------------------------------------------------------------

namespace Lindenmayer

/-
  What holds of a source whenever it holds of what a pull of
  an item leaves holds of every source, as only so many items
  can be pulled.
-/
@[elab_as_elim]
theorem Source.pulls_induction
    {σ α : Type}
    [Source σ α]
    {motive : σ → Prop}
    (step :
      ∀ s, (∀ a t, pull s = (.item a, t) → motive t) →
        motive s)
    (s : σ) :
    motive s := by
  induction hSize : size s
    using Nat.strongRecOn generalizing s with
  | ind n ih =>
      exact step s fun a t hPull =>
        ih _ (hSize ▸ size_lt hPull) t rfl

/-
  Collecting and playing by cases on the first pull, with no
  proof of termination in the way.
-/
theorem Source.collectFrom_eq_match
    {σ α : Type}
    [Source σ α]
    (items : Array α)
    (s : σ) :
    collectFrom items s =
      match pull s with
      | (.item a, t) => collectFrom (items.push a) t
      | (.ended, _) => (items, none)
      | (.failed e, _) => (items, some e) := by
  rw [collectFrom]
  split <;> rename_i hPull <;> simp only [hPull]

theorem Renderer.play_eq_match
    {σ α : Type}
    [Source σ (Item α)]
    (meaning : α → Instruction)
    (r : Renderer)
    (s : σ) :
    r.play meaning s =
      match Source.pull s with
      | (.failed e, _) => ⟨r, some (.config e)⟩
      | (.ended, _) => r.call .finish
      | (.item a, t) =>
          match r.call (a.toCall meaning) with
          | ⟨r', some e⟩ => ⟨r', some e⟩
          | ⟨r', none⟩ => r'.play meaning t := by
  fun_cases play meaning r s with
  | case1 e t hPull => simp only [hPull]
  | case2 t hPull => simp only [hPull]
  | case3 a t hPull _ r' e hCall => simp only [hPull, hCall]
  | case4 a t hPull _ r' hCall => simp only [hPull, hCall]

------------------------------------------------------------
-- Lockstep
------------------------------------------------------------

/- Limited sources are related when as much may be pulled. -/
def Limited.Related
    {σ τ : Type}
    (Beneath : σ → τ → Prop)
    (s : Limited σ)
    (t : Limited τ) : Prop :=
  Beneath s.source t.source ∧ s.left = t.left

namespace Source

variable {σ τ α : Type} [Source σ α] [Source τ α]

/-
  A relation keeps sources in lockstep when related sources
  give the same and leave related sources.
-/
def Lockstep
    (Related : σ → τ → Prop) : Prop :=
  ∀ s t, Related s t →
    (pull s).1 = (pull t).1 ∧
      Related (pull s).2 (pull t).2

namespace Lockstep

variable {Related : σ → τ → Prop}
variable {s : σ} {t : τ}

/- Pulls can be made side by side. -/
theorem after
    (hLockstep : Lockstep Related)
    (hRelated : Related s t)
    (k : Nat) :
    Related (Source.after k s) (Source.after k t) := by
  induction k generalizing s t with
  | zero => exact hRelated
  | succ k ih => exact ih (hLockstep s t hRelated).2

theorem pull_after
    (hLockstep : Lockstep Related)
    (hRelated : Related s t)
    (k : Nat) :
    (pull (Source.after k s)).1 =
      (pull (Source.after k t)).1 :=
  (hLockstep _ _ (hLockstep.after hRelated k)).1

/-
  What related sources give, with the sources that they
  leave, as far as it matters to what follows.
-/
theorem pull_cases
    (hLockstep : Lockstep Related)
    (hRelated : Related s t) :
    (∃ a s' t', pull s = (.item a, s') ∧
        pull t = (.item a, t') ∧ Related s' t') ∨
      (∃ s' t', pull s = (.ended, s') ∧
        pull t = (.ended, t')) ∨
      ∃ e s' t', pull s = (.failed e, s') ∧
        pull t = (.failed e, t') := by
  rcases hLockstep s t hRelated with ⟨hSame, hLeft⟩
  rcases hPull : pull s with ⟨p, s'⟩
  rcases hPull' : pull t with ⟨p', t'⟩
  rw [hPull, hPull'] at hSame hLeft
  cases hSame
  cases p with
  | item a => exact .inl ⟨a, s', t', rfl, rfl, hLeft⟩
  | ended => exact .inr (.inl ⟨s', t', rfl, rfl⟩)
  | failed e => exact .inr (.inr ⟨e, s', t', rfl, rfl⟩)

------------------------------------------------------------
-- Collecting
------------------------------------------------------------

/-
  Related sources end together.  The induction is on what is
  pulled from the first one.
-/
theorem collectFrom_eq
    (hLockstep : Lockstep Related)
    (hRelated : Related s t)
    (items : Array α) :
    collectFrom items s = collectFrom items t := by
  induction s using pulls_induction
    generalizing t items with
  | step s ih =>
      rw [collectFrom_eq_match items s,
        collectFrom_eq_match items t]
      rcases hLockstep.pull_cases hRelated with
        ⟨a, s', t', hPull, hPull', hLeft⟩ |
          ⟨s', t', hPull, hPull'⟩ |
          ⟨e, s', t', hPull, hPull'⟩
      · rw [hPull, hPull']
        exact ih a s' hPull hLeft _
      · rw [hPull, hPull']
      · rw [hPull, hPull']

theorem collect_eq
    (hLockstep : Lockstep Related)
    (hRelated : Related s t) :
    collect s = collect t := by
  rw [collect, collect, hLockstep.collectFrom_eq hRelated]

------------------------------------------------------------
-- Limits
------------------------------------------------------------

/- Limits that leave as many items keep the step. -/
theorem limited
    (hLockstep : Lockstep Related) :
    Lockstep (Limited.Related Related) := by
  rintro ⟨s, left⟩ ⟨t, _⟩ ⟨hRelated, rfl⟩
  rcases hLockstep s t hRelated with ⟨hSame, hLeft⟩
  rcases left with _ | _ | n
  · exact ⟨hSame, hLeft, rfl⟩
  · exact ⟨rfl, hRelated, rfl⟩
  · exact ⟨hSame, hLeft, rfl⟩

end Lockstep

------------------------------------------------------------
-- Playing
------------------------------------------------------------

/-
  A renderer cannot tell related sources apart: it draws the
  same, or the same refusal ends the play.
-/
theorem Lockstep.play_eq
    {σ τ α : Type}
    [Source σ (Item α)] [Source τ (Item α)]
    {Related : σ → τ → Prop}
    (hLockstep : Lockstep Related)
    {s : σ}
    {t : τ}
    (hRelated : Related s t)
    (meaning : α → Instruction)
    (r : Renderer) :
    r.play meaning s = r.play meaning t := by
  induction s using pulls_induction generalizing t r with
  | step s ih =>
      rw [Renderer.play_eq_match meaning r s,
        Renderer.play_eq_match meaning r t]
      rcases hLockstep.pull_cases hRelated with
        ⟨a, s', t', hPull, hPull', hLeft⟩ |
          ⟨s', t', hPull, hPull'⟩ |
          ⟨e, s', t', hPull, hPull'⟩
      · rw [hPull, hPull']
        rcases hCall : r.call (a.toCall meaning) with
          ⟨r', _ | e⟩
        · simp only [hCall]
          exact ih a s' hPull hLeft r'
        · simp only [hCall]
      · rw [hPull, hPull']
      · rw [hPull, hPull']

end Source

end Lindenmayer
