import Lindenmayer.Source

/-
  What a source yields, pull by pull.

  A source yields a list when its pulls give the elements of
  the list in order, and every later pull finds it ended.

  Key definitions include:
    * `Pull.ofOption`
    * `Source.after`
    * `Source.Yields`
    * `Limited.cut`

  Correctness is proven by:
    * `Source.yields_of_simulation`
    * `Source.Yields.take_eq`
    * `Source.Yields.collect_eq`
    * `Limited.yields_cut`
-/

------------------------------------------------------------
-- Yielded Lists
------------------------------------------------------------

namespace Lindenmayer

/- An item that may be missing, as what a pull gives. -/
def Pull.ofOption
    {α : Type} : Option α → Pull α
  | some a => .item a
  | none => .ended

namespace Source

variable {σ α : Type} [Source σ α]

/- The source that is left after a number of pulls. -/
def after
    (k : Nat)
    (s : σ) : σ :=
  match k with
  | 0 => s
  | k + 1 => after k (pull s).2

/- The last of the pulls starts from what the others left. -/
@[simp] theorem after_succ
    (k : Nat)
    (s : σ) :
    after (k + 1) s = (pull (after k s)).2 := by
  induction k generalizing s with
  | zero => rfl
  | succ k ih => exact ih (pull s).2

/-
  A source yields a list of items when, counted from zero,
  pull number `k` gives item number `k`, and finds the source
  ended when there is no such item.
-/
def Yields
    (s : σ)
    (items : List α) : Prop :=
  ∀ k, (pull (after k s)).1 = .ofOption items[k]?

/- The first pull gives the first item, and the others follow. -/
theorem yields_iff
    (s : σ)
    (items : List α) :
    Yields s items ↔
      (pull s).1 = .ofOption items[0]? ∧
        Yields (pull s).2 items.tail := by
  have hLater (k : Nat) : items.tail[k]? = items[k + 1]? :=
    List.getElem?_tail
  constructor
  · intro hYields
    refine ⟨hYields 0, fun k => ?_⟩
    rw [hLater]
    exact hYields (k + 1)
  · rintro ⟨hFirst, hOthers⟩ k
    cases k with
    | zero => exact hFirst
    | succ k =>
        rw [← hLater]
        exact hOthers k

/- Nothing is yielded when all pulls find the source ended. -/
theorem yields_nil_iff
    (s : σ) :
    Yields s [] ↔
      (pull s).1 = .ended ∧ Yields (pull s).2 [] :=
  yields_iff s []

theorem yields_cons_iff
    (s : σ)
    (a : α)
    (items : List α) :
    Yields s (a :: items) ↔
      (pull s).1 = .item a ∧ Yields (pull s).2 items :=
  yields_iff s (a :: items)

theorem yields_congr
    {s t : σ}
    (hPull : pull s = pull t)
    (items : List α) :
    Yields s items ↔ Yields t items := by
  cases items with
  | nil => rw [yields_nil_iff s, yields_nil_iff t, hPull]
  | cons a items =>
      rw [yields_cons_iff, yields_cons_iff, hPull]

/- A source yields only one list. -/
theorem Yields.unique
    {s : σ}
    {items others : List α}
    (hItems : Yields s items)
    (hOthers : Yields s others) :
    items = others := by
  apply List.ext_getElem?
  intro k
  have hSame : Pull.ofOption items[k]? =
      Pull.ofOption others[k]? :=
    (hItems k).symm.trans (hOthers k)
  cases hItem : items[k]? <;>
    cases hOther : others[k]? <;>
    simp [Pull.ofOption, hItem, hOther] at hSame
  · rfl
  · rw [hSame]

/-
  A relation between sources and lists that the pulls respect
  relates a source to the list it yields.
-/
theorem yields_of_simulation
    (Remains : σ → List α → Prop)
    (hEnded :
      ∀ s, Remains s [] →
        (pull s).1 = .ended ∧ Remains (pull s).2 [])
    (hItem :
      ∀ s a items, Remains s (a :: items) →
        (pull s).1 = .item a ∧ Remains (pull s).2 items)
    (s : σ)
    (items : List α)
    (hRemains : Remains s items) :
    Yields s items := by
  intro k
  induction k generalizing s items with
  | zero =>
      cases items with
      | nil => exact (hEnded s hRemains).1
      | cons a items => exact (hItem s a items hRemains).1
  | succ k ih =>
      cases items with
      | nil => exact ih _ [] (hEnded s hRemains).2
      | cons a items =>
          exact ih _ items (hItem s a items hRemains).2

------------------------------------------------------------
-- Taking and Collecting
------------------------------------------------------------

/-
  Taking `k` items takes the first `k` of the list, and leaves
  the others to be yielded.
-/
theorem Yields.take_eq
    {s : σ}
    {items : List α}
    (hYields : Yields s items)
    (k : Nat) :
    (take k s).1 = (items.take k, none) ∧
      Yields (take k s).2 (items.drop k) := by
  induction k generalizing s items with
  | zero => exact ⟨rfl, hYields⟩
  | succ k ih =>
      rw [take]
      cases items with
      | nil =>
          rcases (yields_nil_iff s).mp hYields with
            ⟨hFirst, hLater⟩
          rcases hPull : pull s with ⟨p, t⟩
          rw [hPull] at hFirst hLater
          subst hFirst
          exact ⟨rfl, hLater⟩
      | cons a items =>
          rcases (yields_cons_iff s a items).mp hYields with
            ⟨hFirst, hLater⟩
          rcases hPull : pull s with ⟨p, t⟩
          rw [hPull] at hFirst hLater
          subst hFirst
          rcases ih hLater with ⟨hTaken, hLeft⟩
          exact ⟨by simp [hTaken], hLeft⟩

/- Collecting appends the whole list to the items so far. -/
theorem Yields.collectFrom_eq
    {s : σ}
    {items : List α}
    (hYields : Yields s items)
    (collected : Array α) :
    collectFrom collected s =
      (collected ++ items.toArray, none) := by
  induction items generalizing s collected with
  | nil =>
      rcases (yields_nil_iff s).mp hYields with
        ⟨hFirst, _⟩
      rw [collectFrom]
      split <;> rename_i hPull <;> rw [hPull] at hFirst
      · cases hFirst
      · simp
      · cases hFirst
  | cons a items ih =>
      rcases (yields_cons_iff s a items).mp hYields with
        ⟨hFirst, hLater⟩
      rw [collectFrom]
      split <;> rename_i hPull <;> rw [hPull] at hFirst
      · cases hFirst
        rw [hPull] at hLater
        rw [ih hLater]
        simp
      · cases hFirst
      · cases hFirst

theorem Yields.collect_eq
    {s : σ}
    {items : List α}
    (hYields : Yields s items) :
    collect s = (items, none) := by
  simp [collect, hYields.collectFrom_eq]

end Source

------------------------------------------------------------
-- Limits
------------------------------------------------------------

namespace Limited

variable {σ α : Type} [Source σ α]

/- As much of a list as a limit allows. -/
def cut
    (left : Option Nat)
    (items : List α) : List α :=
  match left with
  | some n => items.take n
  | none => items

/-
  A source that only so many items may be pulled from yields
  as many of those that the source beneath yields.
-/
theorem yields_cut
    {s : σ}
    {items : List α}
    (hYields : Source.Yields s items)
    (left : Option Nat) :
    Source.Yields (⟨s, left⟩ : Limited σ) (cut left items) := by
  apply Source.yields_of_simulation
    (fun (s : Limited σ) taken =>
      ∃ items, Source.Yields s.source items ∧
        cut s.left items = taken)
  · rintro ⟨s, left⟩ ⟨items, hYields, hNone⟩
    rcases left with _ | _ | n
    · simp only [cut] at hNone
      subst hNone
      rcases (Source.yields_nil_iff s).mp hYields with
        ⟨hFirst, hLater⟩
      exact ⟨hFirst, [], hLater, rfl⟩
    · exact ⟨rfl, items, hYields, hNone⟩
    · cases items with
      | nil =>
          rcases (Source.yields_nil_iff s).mp hYields with
            ⟨hFirst, hLater⟩
          exact ⟨hFirst, [], hLater, List.take_nil⟩
      | cons a items => cases hNone
  · rintro ⟨s, left⟩ a taken ⟨items, hYields, hSome⟩
    cases items with
    | nil => rcases left with _ | _ | n <;> cases hSome
    | cons b items =>
        rcases (Source.yields_cons_iff s b items).mp hYields with
          ⟨hFirst, hLater⟩
        rcases left with _ | _ | n
        · cases hSome
          exact ⟨hFirst, taken, hLater, rfl⟩
        · cases hSome
        · cases hSome
          exact ⟨hFirst, items, hLater, rfl⟩
  · exact ⟨items, hYields, rfl⟩

end Limited

end Lindenmayer
