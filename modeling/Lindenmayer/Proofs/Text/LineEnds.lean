import Mathlib.Data.List.Basic
import Lindenmayer.Text.Newline

/-
  Texts whose line ends are translated.

  Only line ends change, and none comes to be or is lost: a
  text without carriage returns in front stays as it is, and
  a class of characters that does not tell the two characters
  of line ends apart drops the same part of both texts.

  Key definitions include:
    * `Text.EndsLine`

  Correctness is proven by:
    * `Text.unifyNewlines_cons_cases`
    * `Text.unifyNewlines_append`
    * `Text.dropWhile_unifyNewlines`
    * `Text.isPrefixOf?_unifyNewlines`
-/

------------------------------------------------------------
-- Line Ends
------------------------------------------------------------

namespace Lindenmayer

namespace Text

/- The characters that line ends are made of. -/
def EndsLine
    (c : Char) : Prop :=
  c = '\r' ∨ c = '\n'

theorem unifyNewlines_cons
    {c : Char}
    (hReturn : c ≠ '\r')
    (cs : List Char) :
    unifyNewlines (c :: cs) = c :: unifyNewlines cs := by
  rw [unifyNewlines, if_neg hReturn]
  exact fun _ hSame => absurd hSame hReturn

/- A carriage return with no line feed is a line end. -/
theorem unifyNewlines_return
    {cs : List Char}
    (hAlone : ∀ rest, cs ≠ '\n' :: rest) :
    unifyNewlines ('\r' :: cs) = '\n' :: unifyNewlines cs := by
  rw [unifyNewlines, if_pos rfl]
  exact fun rest _ => hAlone rest

/-
  A character that ends no line stays; one that does becomes
  a line feed.
-/
theorem unifyNewlines_cons_cases
    (c : Char)
    (cs : List Char) :
    ¬ EndsLine c ∧
        unifyNewlines (c :: cs) = c :: unifyNewlines cs ∨
      EndsLine c ∧
        ∃ rest, unifyNewlines (c :: cs) = '\n' :: rest := by
  by_cases hReturn : c = '\r'
  · subst hReturn
    refine .inr ⟨.inl rfl, ?_⟩
    by_cases hFeed : ∃ rest, cs = '\n' :: rest
    · rcases hFeed with ⟨rest, rfl⟩
      exact ⟨unifyNewlines rest, rfl⟩
    · exact ⟨unifyNewlines cs,
        unifyNewlines_return fun rest hRest =>
          hFeed ⟨rest, hRest⟩⟩
  · rw [unifyNewlines_cons hReturn]
    by_cases hFeed : c = '\n'
    · subst hFeed
      exact .inr ⟨.inr rfl, unifyNewlines cs, rfl⟩
    · exact .inl ⟨by simp [EndsLine, hReturn, hFeed], rfl⟩

/- Before the first carriage return nothing changes. -/
theorem unifyNewlines_append
    {s : List Char}
    (hReturn : '\r' ∉ s)
    (t : List Char) :
    unifyNewlines (s ++ t) = s ++ unifyNewlines t := by
  induction s with
  | nil => rfl
  | cons c s ih =>
      rw [List.mem_cons, not_or] at hReturn
      rw [List.cons_append,
        unifyNewlines_cons (Ne.symm hReturn.1),
        ih hReturn.2, List.cons_append]

------------------------------------------------------------
-- Beginnings
------------------------------------------------------------

/-
  What a class of characters drops is dropped before and
  after the translation, if it holds either both characters
  of line ends or none of them.
-/
theorem dropWhile_unifyNewlines
    {holds : Char → Bool}
    (hAlike : holds '\r' = holds '\n')
    (t : List Char) :
    (unifyNewlines t).dropWhile holds =
      unifyNewlines (t.dropWhile holds) := by
  fun_induction unifyNewlines t with
  | case1 => rfl
  | case2 cs ih =>
      -- a line end of two characters is dropped whole
      cases hHolds : holds '\n' with
      | false => simp [hAlike, hHolds, unifyNewlines]
      | true => simp [hAlike, hHolds, ih]
  | case3 c cs hAlone ih =>
      by_cases hReturn : c = '\r'
      · subst hReturn
        cases hHolds : holds '\n' with
        | false =>
            simp [hAlike, hHolds, unifyNewlines_return
              fun rest hRest => hAlone rest rfl hRest]
        | true => simp [hAlike, hHolds, ih]
      · cases hHolds : holds c with
        | false =>
            simp [hReturn, hHolds, unifyNewlines_cons]
        | true => simp [hReturn, hHolds, ih]

/- A text without line ends begins both texts or none. -/
theorem isPrefixOf?_unifyNewlines
    {s : List Char}
    (hLine : ∀ c ∈ s, ¬ EndsLine c)
    (t : List Char) :
    s.isPrefixOf? (unifyNewlines t) =
      (s.isPrefixOf? t).map unifyNewlines := by
  induction s generalizing t with
  | nil => rfl
  | cons a s ih =>
      rw [List.forall_mem_cons] at hLine
      cases t with
      | nil => rfl
      | cons c t =>
          rcases unifyNewlines_cons_cases c t with
            ⟨_, hSame⟩ | ⟨hEnd, rest, hFeed⟩
          · rw [hSame]
            by_cases hHead : a = c
            · simp [List.isPrefixOf?, hHead, ih hLine.2]
            · simp [List.isPrefixOf?, hHead]
          · have hOther : a ≠ c := by
              rintro rfl
              exact hLine.1 hEnd
            have hOther' : a ≠ '\n' :=
              fun hFeed => hLine.1 (.inr hFeed)
            rw [hFeed]
            simp [List.isPrefixOf?, hOther, hOther']

end Text

end Lindenmayer
