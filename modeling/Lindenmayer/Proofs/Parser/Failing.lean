import Lindenmayer.Proofs.Parser.Success

/-
  When the combinators fail, and by which parse errors.

  Some combinators recover from all parse errors of their
  parts, or leave only one.  A parser that fails by given
  parse errors alone has no other failure: no function in it
  refuses a value, and no repetition in it is endless.

  Key definitions include:
    * `Parser.FailsBy`
    * `Row.FailsBy`

  Correctness is proven by:
    * `Parser.run_optional_ne_parse`
    * `Parser.greedy_error_cases`
    * `Parser.run_many_ne_parse`
    * `Parser.firstMatch_error_cases`
    * `Parser.FailsBy.greedy_succeeds`
    * `Parser.FailsBy.atLeast`
    * `Row.run_cons_error_iff`
-/

------------------------------------------------------------
-- What Recovering Leaves
------------------------------------------------------------

namespace Lindenmayer

namespace Parser

variable {α β : Type}

/- An option never fails by a parse error. -/
theorem run_optional_ne_parse
    (p : Parser α)
    (text : List Char)
    (e : ParseError) :
    p.optional.run text ≠ .error (.parse e) := by
  simp only [optional]
  cases p.run text with
  | ok r => exact fun hError => by cases hError
  | error f =>
      cases f <;> exact fun hError => by cases hError

/- A failure is the same for a value seen as another. -/
theorem error_of_seenAs
    {p : Parser α}
    {f : α → β}
    {text : List Char}
    {e : Failure}
    (hError : (p.seenAs f).run text = .error e) :
    p.run text = .error e := by
  simp only [seenAs] at hError
  split at hError
  · rename_i e' hInner
    cases hError
    exact hInner
  · cases hError

/- A complete match fails in its parser or at the end. -/
theorem run_complete_error
    {p : Parser α}
    {text : List Char}
    {f : Failure}
    (hError : p.complete.run text = .error f) :
    p.run text = .error f ∨
      (∃ r, p.run text = .ok r) ∧
        f = .parse .expectedEnd := by
  simp only [complete] at hError
  cases hRun : p.run text with
  | error g =>
      rw [hRun] at hError
      cases hError
      exact .inl rfl
  | ok r =>
      rcases r with ⟨a, rest⟩
      rw [hRun] at hError
      cases rest with
      | nil => cases hError
      | cons c rest =>
          cases hError
          exact .inr ⟨⟨_, rfl⟩, rfl⟩

/-
  Greedy repetition fails by a failure of the parser that is
  not recovered from, or where a match consumes nothing.
-/
theorem greedy_error_cases
    {p : Parser α}
    {text : List Char}
    {f : Failure}
    (hError : greedy p text = .error f) :
    (f.isRecoverable = false ∧
        ∃ mid, p.run mid = .error f) ∨
      f = .endless ∧
        ∃ mid a rest, p.run mid = .ok (a, rest) ∧
          ¬ rest.length < mid.length := by
  fun_induction greedy p text with
  | case1 text e hRun => cases hError
  | case2 text g hFatal hRun =>
      cases hError
      refine .inl ⟨?_, text, hRun⟩
      cases f with
      | parse e => exact absurd rfl (hFatal e)
      | config e => rfl
      | value m => rfl
      | key name => rfl
      | endless => rfl
  | case3 text a rest hRun hShorter g hRest ih =>
      cases hError
      exact ih hRest
  | case4 text a rest hRun hShorter as rest' hRest ih =>
      cases hError
  | case5 text a rest hRun hLonger =>
      cases hError
      exact .inr ⟨rfl, text, a, rest, hRun, hLonger⟩

/- A repetition of any number never fails by a parse error. -/
theorem run_many_ne_parse
    (p : Parser α)
    (text : List Char)
    (e : ParseError) :
    p.many.run text ≠ .error (.parse e) := by
  rw [many, run_atLeast_zero]
  intro hError
  rcases greedy_error_cases hError with
    ⟨hFatal, _⟩ | ⟨hEndless, _⟩
  · cases hFatal
  · cases hEndless

/-
  Alternatives fail by one parse error, or by a failure of
  one of them that is not recovered from.
-/
theorem firstMatch_error_cases
    {ps : List (Parser α)}
    {text : List Char}
    {f : Failure}
    (hError : firstMatch text ps = .error f) :
    f = .parse .noAlternative ∨
      f.isRecoverable = false ∧
        ∃ p ∈ ps, p.run text = .error f := by
  induction ps with
  | nil =>
      cases hError
      exact .inl rfl
  | cons p ps ih =>
      rw [firstMatch] at hError
      split at hError
      · cases hError
      · rcases ih hError with hNone | ⟨hFatal, q, hMember, hRun⟩
        · exact .inl hNone
        · exact .inr ⟨hFatal, q,
            List.mem_cons_of_mem p hMember, hRun⟩
      · rename_i g hFatal hRun
        cases hError
        refine .inr ⟨?_, p, List.mem_cons_self, hRun⟩
        cases f with
        | parse e => exact absurd rfl (hFatal e)
        | config e => rfl
        | value m => rfl
        | key name => rfl
        | endless => rfl

/- The parse errors of alternatives leave only one. -/
theorem eq_noAlternative_of_firstMatch
    {ps : List (Parser α)}
    {text : List Char}
    {e : ParseError}
    (hError : firstMatch text ps = .error (.parse e)) :
    e = .noAlternative := by
  rcases firstMatch_error_cases hError with
    hNone | ⟨hFatal, _⟩
  · exact Failure.parse.inj hNone
  · cases hFatal

------------------------------------------------------------
-- Parsers
------------------------------------------------------------

/-
  A parser fails by some parse errors, and in no other way.
-/
def FailsBy
    (p : Parser α)
    (es : List ParseError) : Prop :=
  ∀ text f, p.run text = .error f → ∃ e ∈ es, f = .parse e

theorem failsBy_char
    (c : Char) :
    (char c).FailsBy [.expectedCharacter c.toString] := by
  intro text f hError
  refine ⟨_, List.mem_singleton_self _, ?_⟩
  cases text with
  | nil =>
      cases hError
      rfl
  | cons d text =>
      simp only [char] at hError
      split at hError
      · cases hError
      · cases hError
        rfl

theorem failsBy_anyChar
    (holds : Char → Bool)
    (face : String) :
    (anyChar holds face).FailsBy
      [.endOfInput, .unexpectedCharacter] := by
  intro text f hError
  cases text with
  | nil =>
      cases hError
      exact ⟨.endOfInput, by simp, rfl⟩
  | cons c text =>
      simp only [anyChar] at hError
      split at hError
      · cases hError
      · cases hError
        exact ⟨.unexpectedCharacter, by simp, rfl⟩

theorem failsBy_literal
    (s : String) :
    (literal s).FailsBy [.expectedText s] := by
  intro text f hError
  simp only [literal] at hError
  split at hError
  · cases hError
  · cases hError
    exact ⟨_, List.mem_singleton_self _, rfl⟩

theorem failsBy_finish :
    finish.FailsBy [.expectedEnd] := by
  intro text f hError
  cases text with
  | nil => cases hError
  | cons c text =>
      cases hError
      exact ⟨_, List.mem_singleton_self _, rfl⟩

theorem failsBy_skipGaps :
    skipGaps.FailsBy [] :=
  fun _ _ hError => by cases hError

theorem failsBy_skipBlanks :
    skipBlanks.FailsBy [] :=
  fun _ _ hError => by cases hError

namespace FailsBy

variable {p : Parser α}
variable {es es' : List ParseError}

theorem mono
    (hFails : p.FailsBy es)
    (hSubset : es ⊆ es') :
    p.FailsBy es' := by
  intro text f hError
  rcases hFails text f hError with ⟨e, hMember, hParse⟩
  exact ⟨e, hSubset hMember, hParse⟩

/- A parser that fails by no parse error succeeds. -/
theorem succeeds
    (hFails : p.FailsBy [])
    (text : List Char) :
    ∃ r, p.run text = .ok r := by
  cases hRun : p.run text with
  | ok r => exact ⟨r, rfl⟩
  | error f =>
      rcases hFails text f hRun with ⟨e, hMember, _⟩
      exact absurd hMember List.not_mem_nil

theorem seenAs
    (hFails : p.FailsBy es)
    (f : α → β) :
    (p.seenAs f).FailsBy es := by
  intro text g hError
  exact hFails text g (error_of_seenAs hError)

/- A function that takes every value read adds no failure. -/
theorem map
    (hFails : p.FailsBy es)
    (name : String)
    {f : α → Except Failure β}
    (hTotal :
      ∀ text a rest, p.run text = .ok (a, rest) →
        ∃ b, f a = .ok b) :
    (p.map name f).FailsBy es := by
  intro text g hError
  simp only [Parser.map] at hError
  split at hError
  · rename_i g' hInner
    cases hError
    exact hFails text g hInner
  · rename_i a rest hInner
    rcases hTotal text a rest hInner with ⟨b, hValue⟩
    rw [hValue] at hError
    cases hError

/- So does a function that might have rejected a value. -/
theorem tryMap
    (hFails : p.FailsBy es)
    (name : String)
    {f : α → Except Failure β}
    (hTotal :
      ∀ text a rest, p.run text = .ok (a, rest) →
        ∃ b, f a = .ok b) :
    (p.tryMap name f).FailsBy es := by
  intro text g hError
  apply hFails.map name hTotal text g
  simp only [Parser.tryMap, Parser.map] at hError ⊢
  split at hError
  · exact hError
  · rename_i a rest hInner
    rcases hTotal text a rest hInner with ⟨b, hValue⟩
    rw [hValue] at hError
    cases hError

theorem recognize
    (hFails : p.FailsBy es) :
    p.recognize.FailsBy es := by
  intro text f hError
  simp only [Parser.recognize] at hError
  split at hError
  · rename_i f' hInner
    cases hError
    exact hFails text f hInner
  · cases hError

/- A complete match may also miss the end of the text. -/
theorem complete
    (hFails : p.FailsBy es) :
    p.complete.FailsBy (es ++ [.expectedEnd]) := by
  intro text f hError
  rcases run_complete_error hError with
    hInner | ⟨_, rfl⟩
  · rcases hFails text f hInner with ⟨e, hMember, hParse⟩
    exact ⟨e, List.mem_append_left _ hMember, hParse⟩
  · exact ⟨_, List.mem_append_right es
      (List.mem_singleton_self _), rfl⟩

/- A failure of the parser is recovered from. -/
theorem isRecoverable
    (hFails : p.FailsBy es)
    {text : List Char}
    {f : Failure}
    (hError : p.run text = .error f) :
    f.isRecoverable = true := by
  rcases hFails text f hError with ⟨e, _, rfl⟩
  rfl

/- A parse error it fails by is one of those given. -/
theorem mem_of_error
    (hFails : p.FailsBy es)
    {text : List Char}
    {e : ParseError}
    (hError : p.run text = .error (.parse e)) :
    e ∈ es := by
  rcases hFails text _ hError with ⟨e', hMember, hSame⟩
  cases hSame
  exact hMember

/- Alternatives fail by one parse error. -/
theorem oneOf
    {ps : List (Parser α)}
    (hFails : ∀ p ∈ ps, ∃ es, p.FailsBy es) :
    (oneOf ps).FailsBy [.noAlternative] := by
  intro text f hError
  refine ⟨_, List.mem_singleton_self _, ?_⟩
  rcases firstMatch_error_cases hError with
    hNone | ⟨hFatal, p, hMember, hRun⟩
  · exact hNone
  · rcases hFails p hMember with ⟨es, hInner⟩
    rw [hInner.isRecoverable hRun] at hFatal
    cases hFatal

/- Greedy repetition of what consumes always succeeds. -/
theorem greedy_succeeds
    (hFails : p.FailsBy es)
    (hConsumes : p.Consumes)
    (text : List Char) :
    ∃ r, greedy p text = .ok r := by
  cases hRun : greedy p text with
  | ok r => exact ⟨r, rfl⟩
  | error f =>
      rcases greedy_error_cases hRun with
        ⟨hFatal, mid, hError⟩ |
          ⟨_, mid, a, rest, hOk, hLonger⟩
      · rw [hFails.isRecoverable hError] at hFatal
        cases hFatal
      · exact absurd (hConsumes mid a rest hOk) hLonger

/- Repetition fails where a match it must have fails. -/
theorem times
    (hFails : p.FailsBy es)
    {n : Nat}
    {text : List Char}
    {f : Failure}
    (hError : Parser.times p n text = .error f) :
    ∃ e ∈ es, f = .parse e := by
  induction n generalizing text with
  | zero => cases hError
  | succ n ih =>
      simp only [Parser.times] at hError
      cases hRun : p.run text with
      | error g =>
          rw [hRun] at hError
          cases hError
          exact hFails text f hRun
      | ok r =>
          rcases r with ⟨a, rest⟩
          rw [hRun] at hError
          simp only at hError
          cases hLater : Parser.times p n rest with
          | error g =>
              rw [hLater] at hError
              cases hError
              exact ih hLater
          | ok r =>
              rw [hLater] at hError
              cases hError

theorem atLeast
    (hFails : p.FailsBy es)
    (hConsumes : p.Consumes)
    (n : Nat) :
    (p.atLeast n).FailsBy es := by
  intro text f hError
  simp only [Parser.atLeast] at hError
  cases hTimes : Parser.times p n text with
  | error g =>
      rw [hTimes] at hError
      cases hError
      exact hFails.times hTimes
  | ok r =>
      rcases r with ⟨as, rest⟩
      rcases hFails.greedy_succeeds hConsumes rest with
        ⟨r', hGreedy⟩
      rw [hTimes] at hError
      simp only [hGreedy] at hError
      cases hError

/- A repetition of any number does not fail at all. -/
theorem many
    (hFails : p.FailsBy es)
    (hConsumes : p.Consumes) :
    p.many.FailsBy [] := by
  intro text f hError
  rcases hFails.greedy_succeeds hConsumes text with
    ⟨r, hGreedy⟩
  rw [Parser.many, run_atLeast_zero, hGreedy] at hError
  cases hError

end FailsBy

end Parser

------------------------------------------------------------
-- Rows
------------------------------------------------------------

namespace Row

variable {α β : Type}

/-
  A row fails where its first parser does, or where the rest
  of it does after that.
-/
theorem run_cons_error_iff
    (skip : List Char → List Char)
    (p : Parser α)
    (r : Row β)
    (text : List Char)
    (f : Failure) :
    (cons p r).run skip text = .error f ↔
      p.run (skip text) = .error f ∨
        ∃ a rest, p.run (skip text) = .ok (a, rest) ∧
          r.run skip rest = .error f := by
  simp only [cons]
  cases p.run (skip text) with
  | error g => simp
  | ok s =>
      rcases s with ⟨a, rest⟩
      dsimp only
      cases hRow : r.run skip rest with
      | error g => simp [hRow]
      | ok s => simp [hRow]

/- A sequence that builds a value fails in its row. -/
theorem run_sequence_error
    {r : Row α}
    {build : α → β}
    {text : List Char}
    {f : Failure}
    (hError :
      (r.sequence fun a => .ok (build a)).run text =
        .error f) :
    r.run id text = .error f := by
  simp only [sequence] at hError
  split at hError
  · rename_i f' hInner
    cases hError
    exact hInner
  · cases hError

/- A row fails by some parse errors, whatever it skips. -/
def FailsBy
    (r : Row α)
    (es : List ParseError) : Prop :=
  ∀ skip text f,
    r.run skip text = .error f → ∃ e ∈ es, f = .parse e

theorem failsBy_nil :
    nil.FailsBy [] :=
  fun _ _ _ hError => by cases hError

namespace FailsBy

variable {r : Row α}
variable {es es' : List ParseError}

theorem cons
    (hRow : r.FailsBy es')
    {p : Parser β}
    (hFirst : p.FailsBy es) :
    (Row.cons p r).FailsBy (es ++ es') := by
  intro skip text f hError
  rcases (run_cons_error_iff skip p r text f).mp hError with
    hError | ⟨a, rest, _, hError⟩
  · rcases hFirst (skip text) f hError with
      ⟨e, hMember, hParse⟩
    exact ⟨e, List.mem_append_left es' hMember, hParse⟩
  · rcases hRow skip rest f hError with ⟨e, hMember, hParse⟩
    exact ⟨e, List.mem_append_right es hMember, hParse⟩

/- A sequence fails like its row when it builds a value. -/
theorem sequence
    (hRow : r.FailsBy es)
    (build : α → β) :
    (r.sequence fun a => .ok (build a)).FailsBy es := by
  intro text f hError
  exact hRow id text f (run_sequence_error hError)

theorem spaced
    (hRow : r.FailsBy es)
    (build : α → β) :
    (r.spaced fun a => .ok (build a)).FailsBy es := by
  intro text f hError
  simp only [Row.spaced] at hError
  split at hError
  · rename_i f' hInner
    cases hError
    exact hRow skipGap text f hInner
  · cases hError

end FailsBy

end Row

end Lindenmayer
