import Lindenmayer.Error

/-
  This file defines sources, from which items are pulled one
  at a time, and the collection of what they yield.

  Every source has a size that shrinks with each item, so a
  source that is pulled again and again comes to an end.

  Key definitions include:
    * `Pull`
    * `Source`
    * `Source.take`
    * `Source.collect`
    * `Limited`
-/

namespace Lindenmayer

------------------------------------------------------------
-- Sources
------------------------------------------------------------

/-
  What a pull gives: an item, the end, or a refusal that is
  only noticed now.
-/
inductive Pull (α : Type) where
  | item (a : α)
  | ended
  | failed (e : ConfigError)
deriving DecidableEq, Repr

/- The types of sources of items. -/
class Source (σ : Type) (α : outParam Type) where
  pull : σ → Pull α × σ
  size : σ → Nat
  size_lt :
    ∀ {s t : σ} {a : α},
      pull s = (.item a, t) → size t < size s

namespace Source

variable {σ α : Type} [Source σ α]

/-
  Pull up to `n` items.  The refusal, if any, that stopped
  the pulling early stands beside the items and the source
  that is left.
-/
def take
    (n : Nat)
    (s : σ) : (List α × Option ConfigError) × σ :=
  match n with
  | 0 => (([], none), s)
  | n + 1 =>
      match pull s with
      | (.item a, t) =>
          let r := take n t
          ((a :: r.1.1, r.1.2), r.2)
      | (.ended, t) => (([], none), t)
      | (.failed e, t) => (([], some e), t)

/-
  Pull until the end or a refusal, adding the items to those
  already collected.
-/
def collectFrom
    (items : Array α)
    (s : σ) : Array α × Option ConfigError :=
  match hPull : pull s with
  | (.item a, t) =>
      have : size t < size s := size_lt hPull
      collectFrom (items.push a) t
  | (.ended, _) => (items, none)
  | (.failed e, _) => (items, some e)
termination_by size s

/- Pull until the end or a refusal. -/
def collect
    (s : σ) : List α × Option ConfigError :=
  let r := collectFrom (#[] : Array α) s
  (r.1.toList, r.2)

end Source

------------------------------------------------------------
-- Lists as Sources
------------------------------------------------------------

/- A list yields its elements in order. -/
instance {α : Type} : Source (List α) α where
  pull
    | [] => (.ended, [])
    | a :: rest => (.item a, rest)
  size := List.length
  size_lt := by
    intro s t a hPull
    cases s with
    | nil => simp at hPull
    | cons b rest =>
        simp only [Prod.mk.injEq] at hPull
        simp [← hPull.2]

------------------------------------------------------------
-- Limited Sources
------------------------------------------------------------

/-
  A source of which only so many items may still be pulled;
  without a limit, all of them.  Once the limit is used up
  the source beneath is not pulled any more.
-/
structure Limited (σ : Type) where
  source : σ
  left : Option Nat

namespace Limited

variable {σ α : Type} [Source σ α]

/- Pull an item while the limit allows. -/
def pull
    (s : Limited σ) : Pull α × Limited σ :=
  match s.left with
  | some 0 => (.ended, s)
  | left =>
      let r := Source.pull s.source
      (r.1, ⟨r.2, left.map (· - 1)⟩)

instance : Source (Limited σ) α where
  pull := pull
  size s := Source.size s.source
  size_lt := by
    intro s t a hPull
    unfold pull at hPull
    split at hPull
    · simp at hPull
    · simp only [Prod.mk.injEq] at hPull
      rw [← hPull.2]
      exact Source.size_lt (Prod.ext hPull.1 rfl)

end Limited

end Lindenmayer
