import Mathlib.Data.List.Basic
import Lindenmayer.Parser.Row

/-
  When the combinators succeed, and with what.

  Each lemma says for one combinator which runs of its parts
  a successful run is made of.

  Key definitions include:
    * `Parser.Consumes`

  Correctness is proven by:
    * `Parser.run_literal_iff`
    * `Parser.greedy_cons_iff`
    * `Parser.run_atLeast_iff`
    * `Parser.run_atLeast_anyChar_iff`
    * `Parser.firstMatch_eq_ok_iff`
    * `Row.run_cons_iff`
    * `Row.run_spaced_iff`
-/

------------------------------------------------------------
-- Primitives
------------------------------------------------------------

namespace Lindenmayer

namespace Parser

variable {α β : Type}

@[simp] theorem run_char_iff
    (c d : Char)
    (text rest : List Char) :
    (char c).run text = .ok (d, rest) ↔
      d = c ∧ text = c :: rest := by
  cases text with
  | nil => simp [char]
  | cons b text =>
      by_cases hChar : b = c
      · simp [char, hChar, eq_comm]
      · simp [char, hChar]

/- A character of the class is read off the text. -/
@[simp] theorem run_anyChar_iff
    (holds : Char → Bool)
    (face : String)
    (c : Char)
    (text rest : List Char) :
    (anyChar holds face).run text = .ok (c, rest) ↔
      holds c = true ∧ text = c :: rest := by
  cases text with
  | nil => simp [anyChar]
  | cons b text =>
      by_cases hHolds : holds b = true
      · simp only [anyChar, hHolds, if_true,
          Except.ok.injEq, Prod.mk.injEq, List.cons.injEq]
        constructor
        · rintro ⟨rfl, rfl⟩
          exact ⟨hHolds, rfl, rfl⟩
        · rintro ⟨_, rfl, rfl⟩
          exact ⟨rfl, rfl⟩
      · simp only [anyChar, hHolds, Bool.false_eq_true,
          if_false, reduceCtorEq, List.cons.injEq,
          false_iff]
        rintro ⟨hClass, rfl, _⟩
        exact hHolds hClass

/- The text of the literal is read off. -/
@[simp] theorem run_literal_iff
    (s t : String)
    (text rest : List Char) :
    (literal s).run text = .ok (t, rest) ↔
      t = s ∧ text = s.toList ++ rest := by
  simp only [literal]
  split
  · rename_i left hLeft
    rw [List.isPrefixOf?_eq_some_iff_append_eq] at hLeft
    rw [← hLeft, Except.ok.injEq, Prod.mk.injEq,
      List.append_cancel_left_eq, eq_comm]
  · rename_i hNone
    simp only [reduceCtorEq, false_iff]
    rintro ⟨_, hText⟩
    have hSome := List.isPrefixOf?_eq_some_iff_append_eq.mpr
      hText.symm
    rw [hNone] at hSome
    cases hSome

/- Where the text of a literal does not stand, it fails. -/
theorem run_literal_error
    {s : String}
    {text : List Char}
    (hText : ¬ s.toList <+: text) :
    (literal s).run text =
      .error (.parse (.expectedText s)) := by
  simp only [literal]
  split
  · rename_i left hLeft
    rw [List.isPrefixOf?_eq_some_iff_append_eq] at hLeft
    exact absurd ⟨left, hLeft⟩ hText
  · rfl

@[simp] theorem run_skipBlanks_iff
    (u : Unit)
    (text rest : List Char) :
    skipBlanks.run text = .ok (u, rest) ↔
      rest = Text.trimLeft text := by
  simp [skipBlanks, eq_comm]

------------------------------------------------------------
-- Functions of Values
------------------------------------------------------------

@[simp] theorem run_seenAs_iff
    (p : Parser α)
    (f : α → β)
    (text rest : List Char)
    (b : β) :
    (p.seenAs f).run text = .ok (b, rest) ↔
      ∃ a, p.run text = .ok (a, rest) ∧ f a = b := by
  simp only [seenAs]
  cases p.run text with
  | error e => simp
  | ok r => simp [Prod.ext_iff, and_comm]

/- The value is the function's value of the value read. -/
@[simp] theorem run_map_iff
    (p : Parser α)
    (name : String)
    (f : α → Except Failure β)
    (text rest : List Char)
    (b : β) :
    (p.map name f).run text = .ok (b, rest) ↔
      ∃ a, p.run text = .ok (a, rest) ∧ f a = .ok b := by
  simp only [map]
  cases p.run text with
  | error e => simp
  | ok r =>
      rcases r with ⟨a, mid⟩
      cases hValue : f a with
      | error e =>
          simp only [hValue, reduceCtorEq, Except.ok.injEq,
            Prod.mk.injEq, false_iff]
          rintro ⟨a', ⟨rfl, rfl⟩, hOk⟩
          rw [hValue] at hOk
          cases hOk
      | ok c =>
          simp only [hValue, Except.ok.injEq, Prod.mk.injEq]
          constructor
          · rintro ⟨rfl, rfl⟩
            exact ⟨a, ⟨rfl, rfl⟩, hValue⟩
          · rintro ⟨a', ⟨rfl, rfl⟩, hOk⟩
            rw [hValue, Except.ok.injEq] at hOk
            exact ⟨hOk, rfl⟩

/- A rejecting function that succeeds is a function. -/
@[simp] theorem run_tryMap_iff
    (p : Parser α)
    (name : String)
    (f : α → Except Failure β)
    (text rest : List Char)
    (b : β) :
    (p.tryMap name f).run text = .ok (b, rest) ↔
      ∃ a, p.run text = .ok (a, rest) ∧ f a = .ok b := by
  rw [← run_map_iff p name f]
  simp only [tryMap, map]
  cases p.run text with
  | error e => simp
  | ok r =>
      rcases r with ⟨a, mid⟩
      cases hValue : f a <;> simp [hValue]

/- What stands before a rest is counted off its length. -/
theorem take_append_sub
    (t rest : List Char) :
    (t ++ rest).take ((t ++ rest).length - rest.length) =
      t := by
  simp

/- The text recognized is what stands before the rest. -/
@[simp] theorem run_recognize_iff
    (p : Parser α)
    (text rest : List Char)
    (s : String) :
    p.recognize.run text = .ok (s, rest) ↔
      ∃ a, p.run text = .ok (a, rest) ∧
        s = String.ofList
          (text.take (text.length - rest.length)) := by
  simp only [recognize]
  cases p.run text with
  | error e => simp
  | ok r =>
      rcases r with ⟨a, mid⟩
      simp only [Except.ok.injEq, Prod.mk.injEq]
      constructor
      · rintro ⟨rfl, rfl⟩
        exact ⟨a, ⟨rfl, rfl⟩, rfl⟩
      · rintro ⟨a', ⟨rfl, rfl⟩, rfl⟩
        exact ⟨rfl, rfl⟩

@[simp] theorem run_complete_iff
    (p : Parser α)
    (text rest : List Char)
    (a : α) :
    p.complete.run text = .ok (a, rest) ↔
      p.run text = .ok (a, []) ∧ rest = [] := by
  simp only [complete]
  cases p.run text with
  | error e => simp
  | ok r =>
      rcases r with ⟨b, mid⟩
      cases mid <;> simp [finish, eq_comm]

------------------------------------------------------------
-- Alternatives
------------------------------------------------------------

/-
  The first match comes from one of the parsers, and all that
  stand before it fail by parse errors.
-/
theorem firstMatch_eq_ok_iff
    (text : List Char)
    (ps : List (Parser α))
    (r : α × List Char) :
    firstMatch text ps = .ok r ↔
      ∃ before p later, ps = before ++ p :: later ∧
        p.run text = .ok r ∧
        ∀ q ∈ before, ∃ e, q.run text = .error (.parse e) := by
  induction ps with
  | nil => simp [firstMatch]
  | cons p ps ih =>
      rw [firstMatch]
      constructor
      · intro hMatch
        cases hRun : p.run text with
        | ok r' =>
            rw [hRun] at hMatch
            cases hMatch
            exact ⟨[], p, ps, rfl, hRun, by simp⟩
        | error f =>
            rw [hRun] at hMatch
            cases f with
            | parse e =>
                rcases ih.mp hMatch with
                  ⟨before, q, later, rfl, hOk, hBefore⟩
                refine ⟨p :: before, q, later, rfl, hOk, ?_⟩
                intro q' hMember
                rcases List.mem_cons.mp hMember with
                  rfl | hMember
                · exact ⟨e, hRun⟩
                · exact hBefore q' hMember
            | config e => cases hMatch
            | value m => cases hMatch
            | key name => cases hMatch
            | endless => cases hMatch
      · rintro ⟨before, q, later, hSplit, hOk, hBefore⟩
        cases before with
        | nil =>
            rw [List.nil_append, List.cons.injEq] at hSplit
            rw [hSplit.1, hOk]
        | cons p' before =>
            rw [List.cons_append, List.cons.injEq] at hSplit
            rcases hSplit with ⟨rfl, rfl⟩
            rcases hBefore p (by simp) with ⟨e, hError⟩
            rw [hError]
            apply ih.mpr
            exact ⟨before, q, later, rfl, hOk,
              fun q' hMember =>
                hBefore q' (List.mem_cons_of_mem p hMember)⟩

/- A match is the first when the others match alike or fail. -/
theorem firstMatch_eq_ok_of_mem
    {text : List Char}
    {ps : List (Parser α)}
    {p : Parser α}
    {r : α × List Char}
    (hMember : p ∈ ps)
    (hRun : p.run text = .ok r)
    (hOthers :
      ∀ q ∈ ps, q.run text = .ok r ∨
        ∃ e, q.run text = .error (.parse e)) :
    firstMatch text ps = .ok r := by
  induction ps with
  | nil => cases hMember
  | cons q ps ih =>
      rw [firstMatch]
      rcases hOthers q (by simp) with hOk | ⟨e, hError⟩
      · rw [hOk]
      · rw [hError]
        apply ih
        · rcases List.mem_cons.mp hMember with rfl | hLater
          · rw [hRun] at hError
            cases hError
          · exact hLater
        · intro q' hLater
          exact hOthers q' (List.mem_cons_of_mem q hLater)

/- When all fail by parse errors there is no match. -/
theorem firstMatch_fails
    {text : List Char}
    {ps : List (Parser α)}
    (hAll : ∀ q ∈ ps, ∃ e, q.run text = .error (.parse e)) :
    ∃ e, firstMatch text ps = .error (.parse e) := by
  induction ps with
  | nil => exact ⟨.noAlternative, rfl⟩
  | cons q ps ih =>
      rcases hAll q (by simp) with ⟨e, hError⟩
      rw [firstMatch, hError]
      exact ih fun q' hLater =>
        hAll q' (List.mem_cons_of_mem q hLater)

theorem firstMatch_congr
    {text text' : List Char}
    {ps : List (Parser α)}
    (hAlike : ∀ p ∈ ps, p.run text = p.run text') :
    firstMatch text ps = firstMatch text' ps := by
  induction ps with
  | nil => rfl
  | cons p ps ih =>
      rw [firstMatch, firstMatch, hAlike p (by simp),
        ih fun q hLater =>
          hAlike q (List.mem_cons_of_mem p hLater)]

end Parser

end Lindenmayer

------------------------------------------------------------
-- Repetition
------------------------------------------------------------

namespace Lindenmayer

namespace Parser

variable {α : Type}

/- A parser consumes when every match leaves less text. -/
def Consumes
    (p : Parser α) : Prop :=
  ∀ text a rest,
    p.run text = .ok (a, rest) → rest.length < text.length

/- Repetition matches nothing where the parser fails. -/
@[simp] theorem greedy_nil_iff
    (p : Parser α)
    (text rest : List Char) :
    greedy p text = .ok ([], rest) ↔
      rest = text ∧ ∃ e, p.run text = .error (.parse e) := by
  rw [greedy]
  split
  · rename_i e hError
    simp [hError, eq_comm]
  · rename_i f hParse hError
    simp only [reduceCtorEq, hError, Except.error.injEq,
      false_iff]
    rintro ⟨_, e, hEq⟩
    exact hParse e hEq
  · rename_i a mid hOk
    simp only [hOk, reduceCtorEq, exists_false, and_false,
      iff_false]
    split
    · split <;> simp
    · simp

/- Repetition goes on after a match that leaves less text. -/
@[simp] theorem greedy_cons_iff
    (p : Parser α)
    (text rest : List Char)
    (a : α)
    (as : List α) :
    greedy p text = .ok (a :: as, rest) ↔
      ∃ mid, p.run text = .ok (a, mid) ∧
        mid.length < text.length ∧
        greedy p mid = .ok (as, rest) := by
  rw [greedy]
  split
  · rename_i e hError
    simp [hError]
  · rename_i f hParse hError
    simp [hError]
  · rename_i b mid hOk
    simp only [hOk, Except.ok.injEq, Prod.mk.injEq]
    constructor
    · intro hGreedy
      split at hGreedy
      · rename_i hShorter
        split at hGreedy
        · cases hGreedy
        · rename_i bs left hRest
          cases hGreedy
          exact ⟨mid, ⟨rfl, rfl⟩, hShorter, hRest⟩
      · cases hGreedy
    · rintro ⟨_, ⟨rfl, rfl⟩, hShorter, hRest⟩
      rw [if_pos hShorter, hRest]

/- Repetition stops where the parser fails. -/
theorem greedy_stops
    {p : Parser α}
    {text rest : List Char}
    {as : List α}
    (hRun : greedy p text = .ok (as, rest)) :
    ∃ e, p.run rest = .error (.parse e) := by
  induction as generalizing text with
  | nil =>
      rcases (greedy_nil_iff p text rest).mp hRun with
        ⟨rfl, hFails⟩
      exact hFails
  | cons a as ih =>
      rcases (greedy_cons_iff p text rest a as).mp hRun with
        ⟨mid, _, _, hLater⟩
      exact ih hLater

/- Without matches it must have a repetition is greedy. -/
@[simp] theorem run_atLeast_zero
    (p : Parser α)
    (text : List Char) :
    (p.atLeast 0).run text = greedy p text := by
  simp only [atLeast, times]
  cases greedy p text with
  | error f => rfl
  | ok r => rfl

/- A value put in front of the values of a run. -/
def prepend
    (a : α) : Parsed (List α) → Parsed (List α)
  | .error f => .error f
  | .ok (as, rest) => .ok (a :: as, rest)

theorem prepend_eq_ok_iff
    (a : α)
    (r : Parsed (List α))
    (as : List α)
    (rest : List Char) :
    prepend a r = .ok (as, rest) ↔
      ∃ as', r = .ok (as', rest) ∧ as = a :: as' := by
  cases r with
  | error f => simp [prepend]
  | ok r =>
      constructor
      · rintro ⟨⟩
        exact ⟨r.1, rfl, rfl⟩
      · rintro ⟨as', hRun, rfl⟩
        cases hRun
        rfl

/- A repetition fails where it must match and does not. -/
theorem run_atLeast_succ_of_error
    {p : Parser α}
    {text : List Char}
    {f : Failure}
    (hFails : p.run text = .error f)
    (n : Nat) :
    (p.atLeast (n + 1)).run text = .error f := by
  simp only [atLeast, times, hFails]

/- It goes on with what a match leaves if it must. -/
theorem run_atLeast_succ_of_ok
    {p : Parser α}
    {text mid : List Char}
    {a : α}
    (hFirst : p.run text = .ok (a, mid))
    (n : Nat) :
    (p.atLeast (n + 1)).run text =
      prepend a ((p.atLeast n).run mid) := by
  simp only [atLeast, times, hFirst]
  cases times p n mid with
  | error f => rfl
  | ok r =>
      simp only
      cases greedy p r.2 <;> rfl

/- So it begins with the matches it must have. -/
theorem run_atLeast_succ_iff
    (p : Parser α)
    (n : Nat)
    (text rest : List Char)
    (as : List α) :
    (p.atLeast (n + 1)).run text = .ok (as, rest) ↔
      ∃ a mid as', p.run text = .ok (a, mid) ∧
        (p.atLeast n).run mid = .ok (as', rest) ∧
        as = a :: as' := by
  cases hFirst : p.run text with
  | error f =>
      rw [run_atLeast_succ_of_error hFirst]
      simp
  | ok r =>
      rcases r with ⟨a, mid⟩
      rw [run_atLeast_succ_of_ok hFirst, prepend_eq_ok_iff]
      constructor
      · rintro ⟨as', hLater, rfl⟩
        exact ⟨a, mid, as', rfl, hLater, rfl⟩
      · rintro ⟨_, _, as', ⟨rfl, rfl⟩, hLater, rfl⟩
        exact ⟨as', hLater, rfl⟩

/-
  A parser that consumes, repeated at least `n` times, reads
  what greedy repetition reads, if that are enough values.
-/
theorem run_atLeast_iff
    (p : Parser α)
    (hConsumes : p.Consumes)
    (n : Nat)
    (text rest : List Char)
    (as : List α) :
    (p.atLeast n).run text = .ok (as, rest) ↔
      n ≤ as.length ∧ greedy p text = .ok (as, rest) := by
  induction n generalizing text as with
  | zero =>
      rw [run_atLeast_zero]
      simp only [Nat.zero_le, true_and]
  | succ n ih =>
      rw [run_atLeast_succ_iff]
      constructor
      · rintro ⟨a, mid, as', hRun, hRest, rfl⟩
        rcases (ih mid as').mp hRest with
          ⟨hLength, hGreedy⟩
        refine ⟨by simpa using hLength, ?_⟩
        rw [greedy_cons_iff]
        exact
          ⟨mid, hRun, hConsumes text a mid hRun, hGreedy⟩
      · rintro ⟨hLength, hGreedy⟩
        cases as with
        | nil => simp at hLength
        | cons a as' =>
            rw [greedy_cons_iff] at hGreedy
            rcases hGreedy with ⟨mid, hRun, _, hRest⟩
            refine ⟨a, mid, as', hRun, ?_, rfl⟩
            exact (ih mid as').mpr
              ⟨by simpa using hLength, hRest⟩

/- A character that is read is consumed. -/
theorem consumes_anyChar
    (holds : Char → Bool)
    (face : String) :
    (anyChar holds face).Consumes := by
  intro text c rest hRun
  rw [((run_anyChar_iff holds face c text rest).mp hRun).2,
    List.length_cons]
  omega

/- Greedy repetition takes all there is of a class. -/
theorem greedy_anyChar
    (holds : Char → Bool)
    (face : String)
    (text : List Char) :
    greedy (anyChar holds face) text =
      .ok (text.takeWhile holds, text.dropWhile holds) := by
  induction text with
  | nil =>
      rw [List.takeWhile_nil, greedy_nil_iff]
      exact ⟨rfl, .endOfInput, rfl⟩
  | cons c text ih =>
      by_cases hHolds : holds c = true
      · rw [List.takeWhile_cons_of_pos hHolds,
          List.dropWhile_cons_of_pos hHolds, greedy_cons_iff]
        exact
          ⟨text, (run_anyChar_iff _ _ _ _ _).mpr ⟨hHolds, rfl⟩,
            by simp, ih⟩
      · rw [List.takeWhile_cons_of_neg hHolds,
          List.dropWhile_cons_of_neg hHolds, greedy_nil_iff]
        exact
          ⟨rfl, .unexpectedCharacter, by
            simp [anyChar, hHolds]⟩

/- One or more characters of a class, as many as there are. -/
@[simp] theorem run_atLeast_anyChar_iff
    (holds : Char → Bool)
    (face : String)
    (text rest cs : List Char) :
    ((anyChar holds face).atLeast 1).run text =
        .ok (cs, rest) ↔
      cs ≠ [] ∧ cs = text.takeWhile holds ∧
        rest = text.dropWhile holds := by
  rw [run_atLeast_iff _ (consumes_anyChar holds face),
    greedy_anyChar, Except.ok.injEq, Prod.mk.injEq,
    Nat.one_le_iff_ne_zero, ne_eq, ne_eq,
    List.length_eq_zero_iff]
  simp only [eq_comm]

end Parser

end Lindenmayer

------------------------------------------------------------
-- Rows
------------------------------------------------------------

namespace Lindenmayer

namespace Row

variable {α β γ : Type}
variable (skip : List Char → List Char)

@[simp] theorem run_nil_iff
    (text rest : List Char)
    (u : Unit) :
    nil.run skip text = .ok (u, rest) ↔ rest = text := by
  simp [nil, eq_comm]

/- A row skips, runs its first parser, and runs the others. -/
@[simp] theorem run_cons_iff
    (p : Parser α)
    (r : Row β)
    (text rest : List Char)
    (a : α)
    (b : β) :
    (cons p r).run skip text = .ok ((a, b), rest) ↔
      ∃ mid, p.run (skip text) = .ok (a, mid) ∧
        r.run skip mid = .ok (b, rest) := by
  simp only [cons]
  cases p.run (skip text) with
  | error f => simp
  | ok s =>
      rcases s with ⟨a', mid⟩
      simp only [Except.ok.injEq, Prod.mk.injEq]
      constructor
      · intro hRun
        cases hRest : r.run skip mid with
        | error f =>
            rw [hRest] at hRun
            cases hRun
        | ok s' =>
            rw [hRest] at hRun
            cases hRun
            exact ⟨mid, ⟨rfl, rfl⟩, hRest⟩
      · rintro ⟨_, ⟨rfl, rfl⟩, hRest⟩
        rw [hRest]

/- A sequence builds its value from the values of its row. -/
@[simp] theorem run_sequence_iff
    (r : Row α)
    (build : α → Except Failure β)
    (text rest : List Char)
    (b : β) :
    (r.sequence build).run text = .ok (b, rest) ↔
      ∃ a, r.run id text = .ok (a, rest) ∧
        build a = .ok b := by
  exact Parser.run_map_iff ⟨"", r.run id⟩ "" build text rest b

/-
  A spaced sequence skips spaces and tabs within its row and
  after it.
-/
@[simp] theorem run_spaced_iff
    (r : Row α)
    (build : α → Except Failure β)
    (text rest : List Char)
    (b : β) :
    (r.spaced build).run text = .ok (b, rest) ↔
      ∃ a left, r.run skipGap text = .ok (a, left) ∧
        build a = .ok b ∧ rest = skipGap left := by
  simp only [spaced]
  constructor
  · intro hRun
    cases hRow : r.run skipGap text with
    | error f =>
        rw [hRow] at hRun
        cases hRun
    | ok s =>
        rcases s with ⟨a, left⟩
        rw [hRow] at hRun
        simp only at hRun
        cases hBuild : build a with
        | error f =>
            rw [hBuild] at hRun
            cases hRun
        | ok c =>
            rw [hBuild] at hRun
            cases hRun
            exact ⟨a, left, rfl, hBuild, rfl⟩
  · rintro ⟨a, left, hRow, hBuild, rfl⟩
    rw [hRow]
    simp only [hBuild]

end Row

end Lindenmayer
