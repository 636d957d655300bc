import Lindenmayer.Proofs.Parser.Failing
import Lindenmayer.Proofs.Parser.Suffix

/-
  Repetition takes all the matches there are, and no more.

  A parser matches again and again, each time what the match
  before has left, until it fails.  Repeated, it gives the
  values of these matches and leaves the text on which it has
  failed, unless the matches are too few or the failure is not
  recovered from: then it fails alike.

  Key definitions include:
    * `Parser.Stops`
    * `Parser.ending`
    * `Parser.NeverAdds`
    * `Parser.Repeatable`

  Correctness is proven by:
    * `Parser.Stops.run_atLeast`
    * `Parser.exists_stops_of_run`
    * `Parser.Consumes.exists_stops`
    * `Parser.FailsBy.repeatable`
    * `Parser.run_atLeast_eq_sequence`
    * `Parser.atLeast_greedy_rewinding`
-/

------------------------------------------------------------
-- Matches up to a Failure
------------------------------------------------------------

namespace Lindenmayer

namespace Parser

variable {α : Type}

/-
  A parser matches a text, and what each match leaves, giving
  some values; on the rest it fails for the first time.
-/
inductive Stops
    (p : Parser α) :
    List Char → List α → List Char → Failure → Prop where
  | here
      {text : List Char}
      {f : Failure}
      (hFails : p.run text = .error f) :
      Stops p text [] text f
  | next
      {text mid rest : List Char}
      {a : α}
      {as : List α}
      {f : Failure}
      (hFirst : p.run text = .ok (a, mid))
      (hLater : Stops p mid as rest f) :
      Stops p text (a :: as) rest f

/-
  What a repetition makes of the matches and of the failure
  behind them: the values if there are enough of them and the
  failure is a parse error, and else the failure.
-/
def ending
    (n : Nat)
    (as : List α)
    (rest : List Char)
    (f : Failure) : Parsed (List α) :=
  if n ≤ as.length ∧ f.isRecoverable = true then
    .ok (as, rest)
  else .error f

/-
  What a match leaves is shorter, or the text as it was, as of
  a parser that only hands back a slice of its text.
-/
def NeverAdds
    (p : Parser α) : Prop :=
  ∀ text a rest,
    p.run text = .ok (a, rest) →
      rest.length < text.length ∨ rest = text

variable {p : Parser α}

theorem LeavesSuffix.neverAdds
    (hSuffix : p.LeavesSuffix) :
    p.NeverAdds := by
  intro text a rest hRun
  have hRest := hSuffix text a rest hRun
  rcases Nat.lt_or_eq_of_le hRest.length_le with
    hShorter | hSame
  · exact .inl hShorter
  · exact .inr (hRest.eq_of_length hSame)

theorem Consumes.neverAdds
    (hConsumes : p.Consumes) :
    p.NeverAdds :=
  fun text a rest hRun => .inl (hConsumes text a rest hRun)

namespace Stops

variable {text rest : List Char}
variable {as : List α}
variable {f : Failure}

/- Where a match leaves the whole text, no failure follows. -/
theorem run_ne_self
    (hStops : p.Stops text as rest f)
    (a : α) :
    p.run text ≠ .ok (a, text) := by
  induction hStops with
  | here hFails =>
      rw [hFails]
      exact fun hSame => by cases hSame
  | next hFirst hLater ih =>
      intro hSame
      rw [hFirst] at hSame
      cases hSame
      exact ih hFirst

/- So every match up to the failure leaves less text. -/
theorem shorter
    (hNeverAdds : p.NeverAdds)
    {mid : List Char}
    {a : α}
    (hFirst : p.run text = .ok (a, mid))
    (hStops : p.Stops text as rest f) :
    mid.length < text.length := by
  rcases hNeverAdds text a mid hFirst with hShorter | rfl
  · exact hShorter
  · exact absurd hFirst (hStops.run_ne_self a)

end Stops

------------------------------------------------------------
-- Repetition
------------------------------------------------------------

/- A repetition that does not match ends at once. -/
theorem run_atLeast_of_error
    {text : List Char}
    {f : Failure}
    (hFails : p.run text = .error f)
    (n : Nat) :
    (p.atLeast n).run text = ending n [] text f := by
  cases n with
  | zero =>
      rw [run_atLeast_zero, greedy, hFails]
      cases f <;> rfl
  | succ n =>
      rw [run_atLeast_succ_of_error hFails]
      rfl

/-
  It goes on with what a match leaves also if it need not,
  when the match leaves less.
-/
theorem run_atLeast_zero_of_ok
    {text mid : List Char}
    {a : α}
    (hFirst : p.run text = .ok (a, mid))
    (hShorter : mid.length < text.length) :
    (p.atLeast 0).run text =
      prepend a ((p.atLeast 0).run mid) := by
  rw [run_atLeast_zero, run_atLeast_zero, greedy, hFirst]
  simp only [if_pos hShorter]
  cases greedy p mid <;> rfl

/- A match more is one that a repetition may be short of. -/
theorem prepend_ending
    (n : Nat)
    (a : α)
    (as : List α)
    (rest : List Char)
    (f : Failure) :
    prepend a (ending n as rest f) =
      ending (n + 1) (a :: as) rest f := by
  simp only [ending, List.length_cons,
    Nat.add_le_add_iff_right]
  split <;> rfl

theorem prepend_ending_zero
    (a : α)
    (as : List α)
    (rest : List Char)
    (f : Failure) :
    prepend a (ending 0 as rest f) =
      ending 0 (a :: as) rest f := by
  simp only [ending, Nat.zero_le, true_and]
  split <;> rfl

/-
  Where a parser stops decides what its repetition gives.  The
  induction is on the matches, each of which is one that the
  repetition must have or leaves less text.
-/
theorem Stops.run_atLeast
    {text rest : List Char}
    {as : List α}
    {f : Failure}
    (hNeverAdds : p.NeverAdds)
    (hStops : p.Stops text as rest f)
    (n : Nat) :
    (p.atLeast n).run text = ending n as rest f := by
  induction hStops generalizing n with
  | here hFails => exact run_atLeast_of_error hFails n
  | next hFirst hLater ih =>
      cases n with
      | zero =>
          have hStops := Stops.next hFirst hLater
          have hShorter := hStops.shorter hNeverAdds hFirst
          rw [run_atLeast_zero_of_ok hFirst hShorter, ih,
            prepend_ending_zero]
      | succ n =>
          rw [run_atLeast_succ_of_ok hFirst, ih,
            prepend_ending]

/- Greedy repetition that ends has come to a failure. -/
theorem exists_stops_of_greedy
    {text : List Char}
    (hEnds : greedy p text ≠ .error .endless) :
    ∃ as rest f, p.Stops text as rest f ∧
      (p.atLeast 0).run text = ending 0 as rest f := by
  have hGoesOn :
      ∀ {text mid a}, p.run text = .ok (a, mid) →
        mid.length < text.length →
        (∃ as rest f, p.Stops mid as rest f ∧
          (p.atLeast 0).run mid = ending 0 as rest f) →
        ∃ as rest f, p.Stops text as rest f ∧
          (p.atLeast 0).run text = ending 0 as rest f := by
    rintro text mid a hFirst hShorter
      ⟨as, rest, f, hStops, hRun⟩
    refine ⟨a :: as, rest, f, .next hFirst hStops, ?_⟩
    rw [run_atLeast_zero_of_ok hFirst hShorter, hRun,
      prepend_ending_zero]
  fun_induction greedy p text with
  | case1 text e hRun =>
      exact ⟨_, _, _, .here hRun, run_atLeast_of_error hRun 0⟩
  | case2 text f hFatal hRun =>
      exact ⟨_, _, _, .here hRun, run_atLeast_of_error hRun 0⟩
  | case3 text a mid hRun hShorter f hRest ih =>
      exact hGoesOn hRun hShorter (ih (hRest ▸ hEnds))
  | case4 text a mid hRun hShorter as rest hRest ih =>
      refine hGoesOn hRun hShorter (ih ?_)
      rw [hRest]
      exact fun hSame => by cases hSame
  | case5 text a mid hRun hLonger => exact absurd rfl hEnds

/-
  A repetition that ends has come to where its parser stops,
  whatever the parser leaves of a text.
-/
theorem exists_stops_of_run
    {n : Nat}
    {text : List Char}
    (hEnds : (p.atLeast n).run text ≠ .error .endless) :
    ∃ as rest f, p.Stops text as rest f ∧
      (p.atLeast n).run text = ending n as rest f := by
  induction n generalizing text with
  | zero =>
      rw [run_atLeast_zero] at hEnds
      exact exists_stops_of_greedy hEnds
  | succ n ih =>
      cases hRun : p.run text with
      | error f =>
          exact ⟨_, _, _, .here hRun,
            run_atLeast_of_error hRun (n + 1)⟩
      | ok r =>
          rcases r with ⟨a, mid⟩
          rw [run_atLeast_succ_of_ok hRun] at hEnds
          rcases ih fun hEndless => hEnds (by rw [hEndless]; rfl)
            with ⟨as, rest, f, hStops, hLater⟩
          refine ⟨a :: as, rest, f, .next hRun hStops, ?_⟩
          rw [run_atLeast_succ_of_ok hRun, hLater,
            prepend_ending]

/-
  A parser that consumes stops on every text, after no more
  matches than there are characters taken.
-/
theorem Consumes.exists_stops
    (hConsumes : p.Consumes)
    (text : List Char) :
    ∃ as rest f, p.Stops text as rest f ∧
      as.length + rest.length ≤ text.length := by
  induction hLength : text.length
    using Nat.strongRecOn generalizing text with
  | ind length ih =>
      cases hRun : p.run text with
      | error f =>
          exact ⟨[], text, f, .here hRun, by simp [hLength]⟩
      | ok r =>
          rcases r with ⟨a, mid⟩
          have hShorter := hConsumes text a mid hRun
          rw [hLength] at hShorter
          rcases ih mid.length hShorter mid rfl with
            ⟨as, rest, f, hStops, hFew⟩
          refine ⟨a :: as, rest, f, .next hRun hStops, ?_⟩
          rw [List.length_cons]
          omega

/-
  Its repetition ends on every text, with no more matches
  than there are characters.
-/
theorem Consumes.run_atLeast
    (hConsumes : p.Consumes)
    (n : Nat)
    (text : List Char) :
    ∃ as rest f, p.Stops text as rest f ∧
      as.length ≤ text.length ∧
      (p.atLeast n).run text = ending n as rest f := by
  rcases hConsumes.exists_stops text with
    ⟨as, rest, f, hStops, hFew⟩
  refine ⟨as, rest, f, hStops, by omega, ?_⟩
  exact hStops.run_atLeast hConsumes.neverAdds n

/-
  A parser that can be repeated: each match consumes, and on
  every text the matches come to an end by a parse error.
-/
structure Repeatable
    (p : Parser α) : Prop where
  consumes : p.Consumes
  stops :
    ∀ text, ∃ as rest e, p.Stops text as rest (.parse e) ∧
      as.length ≤ text.length

/- Where a parser stops, it fails. -/
theorem Stops.run_rest
    {text rest : List Char}
    {as : List α}
    {f : Failure}
    (hStops : p.Stops text as rest f) :
    p.run rest = .error f := by
  induction hStops with
  | here hFails => exact hFails
  | next hFirst hLater ih => exact ih

/- What consumes and fails by parse errors can be repeated. -/
theorem FailsBy.repeatable
    {es : List ParseError}
    (hFails : p.FailsBy es)
    (hConsumes : p.Consumes) :
    p.Repeatable := by
  refine ⟨hConsumes, fun text => ?_⟩
  rcases hConsumes.exists_stops text with
    ⟨as, rest, f, hStops, hFew⟩
  rcases hFails rest f hStops.run_rest with ⟨e, _, rfl⟩
  exact ⟨as, rest, e, hStops, by omega⟩

------------------------------------------------------------
-- Sequences
------------------------------------------------------------

/- Matches that a repetition must have are a row. -/
theorem times_eq_row
    (p : Parser α)
    (n : Nat)
    (text : List Char) :
    times p n text =
      (Row.ofList (List.replicate n p)).run id text := by
  induction n generalizing text with
  | zero => rfl
  | succ n ih =>
      simp only [times, List.replicate_succ, Row.ofList,
        Row.seenAs, Row.cons, id_eq]
      cases p.run text with
      | error f => rfl
      | ok r =>
          rcases r with ⟨a, mid⟩
          simp only [ih]
          cases (Row.ofList (List.replicate n p)).run id mid <;>
            rfl

/-
  To match at least `n` times is to match a sequence of `n`
  copies of the parser, and then any number of times.
-/
theorem run_atLeast_eq_sequence
    (p : Parser α)
    (n : Nat)
    (text : List Char) :
    (p.atLeast n).run text =
      match ((Row.ofList (List.replicate n p)).sequence
          .ok).run text with
      | .error f => .error f
      | .ok (as, mid) =>
          match p.many.run mid with
          | .error f => .error f
          | .ok (bs, rest) => .ok (as ++ bs, rest) := by
  simp only [many, run_atLeast_zero, Row.sequence,
    ← times_eq_row]
  simp only [atLeast]
  cases times p n text <;> rfl

/-
  Every repetition that ends is greedy and rewinds.  It has
  matched until its parser failed for the first time, and if
  the matches are enough and the failure is a parse error, it
  gives all their values and the text on which the parser has
  failed, and else just this failure.  Where a parser that
  never adds to a text stops, its repetition does end so.  A
  repetition is a sequence of the matches it must have and as
  many matches as there are behind them.
-/
theorem atLeast_greedy_rewinding
    (p : Parser α)
    (n : Nat)
    (text : List Char) :
    ((p.atLeast n).run text ≠ .error .endless →
      ∃ as rest f, p.Stops text as rest f ∧
        (p.atLeast n).run text = ending n as rest f) ∧
    (p.NeverAdds →
      ∀ as rest f, p.Stops text as rest f →
        (p.atLeast n).run text = ending n as rest f) ∧
    (p.atLeast n).run text =
      match ((Row.ofList (List.replicate n p)).sequence
          .ok).run text with
      | .error f => .error f
      | .ok (as, mid) =>
          match p.many.run mid with
          | .error f => .error f
          | .ok (bs, rest) => .ok (as ++ bs, rest) :=
  ⟨exists_stops_of_run,
    fun hNeverAdds _ _ _ hStops =>
      hStops.run_atLeast hNeverAdds n,
    run_atLeast_eq_sequence p n text⟩

/-
  A third pair is begun, but not consumed; where three pairs
  must be matched, it is missing.
-/
theorem atLeast_greedy_rewinding_pairs :
    let pair : Parser (List Char) :=
      (Row.ofList [.char 'A', .char 'B']).sequence .ok
    let text := ['A', 'B', 'A', 'B', 'A', 'C']
    let missing : Failure := .parse (.expectedCharacter "B")
    pair.NeverAdds ∧
      pair.Stops text [['A', 'B'], ['A', 'B']] ['A', 'C']
        missing ∧
      (pair.atLeast 2).run text =
        .ok ([['A', 'B'], ['A', 'B']], ['A', 'C']) ∧
      (pair.atLeast 3).run text = .error missing ∧
      ∃ as rest f, pair.Stops text as rest f ∧
        (pair.atLeast 2).run text = ending 2 as rest f := by
  intro pair text missing
  have hSuffix : pair.LeavesSuffix := by
    refine (Row.leavesSuffix_ofList ?_).sequence .ok
    rw [List.forall_mem_cons, List.forall_mem_singleton]
    exact ⟨leavesSuffix_char 'A', leavesSuffix_char 'B'⟩
  have hStops :
      pair.Stops text [['A', 'B'], ['A', 'B']] ['A', 'C']
        missing :=
    .next rfl (.next rfl (.here rfl))
  have hTwo :=
    (atLeast_greedy_rewinding pair 2 text).2.1
      hSuffix.neverAdds _ _ _ hStops
  have hThree :=
    (atLeast_greedy_rewinding pair 3 text).2.1
      hSuffix.neverAdds _ _ _ hStops
  have hEnds : (pair.atLeast 2).run text ≠ .error .endless := by
    rw [hTwo]
    exact fun hSame => by cases hSame
  exact ⟨hSuffix.neverAdds, hStops, hTwo, hThree,
    (atLeast_greedy_rewinding pair 2 text).1 hEnds⟩

end Parser

end Lindenmayer
