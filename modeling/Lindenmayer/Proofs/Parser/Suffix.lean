import Lindenmayer.Parser.Expression
import Lindenmayer.Proofs.Parser.Success

/-
  Parsers only take away from the front of a text.

  Whatever the nesting of the combinators, what a successful
  run leaves is a suffix of its text, also after failures
  that were recovered from.  So counting what is left is
  enough to tell the text that was consumed.

  Key definitions include:
    * `Parser.LeavesSuffix`
    * `Row.LeavesSuffix`
    * `Expression.Combined`

  Correctness is proven by:
    * `Parser.LeavesSuffix.atLeast`
    * `Parser.LeavesSuffix.oneOf`
    * `Row.LeavesSuffix.spaced`
    * `Parser.LeavesSuffix.run_recognize`
    * `Expression.Combined.leavesSuffix`
    * `Expression.recognize_consumed`
-/

------------------------------------------------------------
-- Combined Expressions
------------------------------------------------------------

namespace Lindenmayer

/-
  The expressions that are built by nesting the combinators,
  with no parser given from outside.
-/
inductive Expression.Combined
    {β : Type} : Expression β → Prop where
  | char (c : Char) :
      Combined (.char c)
  | anyChar
      (asks : Char → Except Failure Bool)
      (face : String) :
      Combined (.anyChar asks face)
  | literal (s : String) :
      Combined (.literal s)
  | finish :
      Combined .finish
  | skipGaps :
      Combined .skipGaps
  | skipBlanks :
      Combined .skipBlanks
  | optional
      {p : Expression β}
      (hInner : p.Combined) :
      Combined (.optional p)
  | atLeast
      {p : Expression β}
      (n : Nat)
      (hInner : p.Combined) :
      Combined (.atLeast n p)
  | map
      {p : Expression β}
      (name : String)
      (f : Value β → Except Failure (Value β))
      (hInner : p.Combined) :
      Combined (.map p name f)
  | tryMap
      {p : Expression β}
      (name : String)
      (f : Value β → Except Failure (Value β))
      (hInner : p.Combined) :
      Combined (.tryMap p name f)
  | recognize
      {p : Expression β}
      (hInner : p.Combined) :
      Combined (.recognize p)
  | oneOf
      {ps : List (Expression β)}
      (hInner : ∀ p ∈ ps, p.Combined) :
      Combined (.oneOf ps)
  | sequence
      {ps : List (Expression β)}
      (build : List (Value β) → Except Failure (Value β))
      (hInner : ∀ p ∈ ps, p.Combined) :
      Combined (.sequence ps build)
  | spaced
      {ps : List (Expression β)}
      (build : List (Value β) → Except Failure (Value β))
      (hInner : ∀ p ∈ ps, p.Combined) :
      Combined (.spaced ps build)
  | complete
      {p : Expression β}
      (hInner : p.Combined) :
      Combined (.complete p)

/- The parsers of expressions are those of each of them. -/
theorem Expression.parsers_eq_map
    {β : Type}
    (ps : List (Expression β)) :
    parsers ps = ps.map parser := by
  induction ps with
  | nil => rfl
  | cons p ps ih => rw [parsers, ih, List.map_cons]

------------------------------------------------------------
-- Parsers
------------------------------------------------------------

namespace Parser

variable {α β : Type}

/- A parser leaves a suffix of every text it matches. -/
def LeavesSuffix
    (p : Parser α) : Prop :=
  ∀ text a rest,
    p.run text = .ok (a, rest) → rest <:+ text

theorem leavesSuffix_char
    (c : Char) :
    (char c).LeavesSuffix := by
  intro text d rest hRun
  rw [((run_char_iff c d text rest).mp hRun).2]
  exact List.suffix_cons c rest

theorem leavesSuffix_askChar
    (asks : Char → Except Failure Bool)
    (face : String) :
    (askChar asks face).LeavesSuffix := by
  intro text d rest hRun
  cases text with
  | nil => cases hRun
  | cons c text =>
      simp only [askChar] at hRun
      cases hAsk : asks c with
      | error f =>
          rw [hAsk] at hRun
          cases hRun
      | ok holds =>
          rw [hAsk] at hRun
          cases holds with
          | false => cases hRun
          | true =>
              cases hRun
              exact List.suffix_cons d rest

theorem leavesSuffix_literal
    (s : String) :
    (literal s).LeavesSuffix := by
  intro text t rest hRun
  rw [((run_literal_iff s t text rest).mp hRun).2]
  exact List.suffix_append s.toList rest

theorem leavesSuffix_finish :
    finish.LeavesSuffix := by
  intro text u rest hRun
  cases text with
  | nil =>
      cases hRun
      exact List.suffix_refl []
  | cons c text => cases hRun

theorem leavesSuffix_skipGaps :
    skipGaps.LeavesSuffix := by
  intro text u rest hRun
  cases hRun
  exact List.dropWhile_suffix Text.isGap

theorem leavesSuffix_skipBlanks :
    skipBlanks.LeavesSuffix := by
  intro text u rest hRun
  cases hRun
  exact List.dropWhile_suffix Text.isBlank

/- A complete match leaves nothing. -/
theorem leavesSuffix_complete
    (p : Parser α) :
    p.complete.LeavesSuffix := by
  intro text a rest hRun
  rw [((run_complete_iff p text rest a).mp hRun).2]
  exact List.nil_suffix

/- Matching greedily takes one suffix after the other. -/
theorem greedy_suffix
    {p : Parser α}
    (hSuffix : p.LeavesSuffix)
    {text rest : List Char}
    {as : List α}
    (hRun : greedy p text = .ok (as, rest)) :
    rest <:+ text := by
  induction as generalizing text with
  | nil =>
      rcases (greedy_nil_iff p text rest).mp hRun with
        ⟨rfl, _⟩
      exact List.suffix_refl rest
  | cons a as ih =>
      rcases (greedy_cons_iff p text rest a as).mp hRun with
        ⟨mid, hFirst, _, hLater⟩
      exact (ih hLater).trans (hSuffix text a mid hFirst)

namespace LeavesSuffix

variable {p : Parser α}

theorem seenAs
    (hSuffix : p.LeavesSuffix)
    (f : α → β) :
    (p.seenAs f).LeavesSuffix := by
  intro text b rest hRun
  rcases (run_seenAs_iff p f text rest b).mp hRun with
    ⟨a, hInner, _⟩
  exact hSuffix text a rest hInner

/- A recovered failure leaves all of the text. -/
theorem optional
    (hSuffix : p.LeavesSuffix) :
    p.optional.LeavesSuffix := by
  intro text o rest hRun
  simp only [Parser.optional] at hRun
  split at hRun
  · rename_i a mid hInner
    cases hRun
    exact hSuffix text a rest hInner
  · cases hRun
    exact List.suffix_refl text
  · cases hRun

theorem atLeast
    (hSuffix : p.LeavesSuffix)
    (n : Nat) :
    (p.atLeast n).LeavesSuffix := by
  intro text as rest hRun
  induction n generalizing text as with
  | zero =>
      rw [run_atLeast_zero] at hRun
      exact greedy_suffix hSuffix hRun
  | succ n ih =>
      rcases (run_atLeast_succ_iff p n text rest as).mp hRun
        with ⟨a, mid, as', hFirst, hLater, _⟩
      exact (ih mid as' hLater).trans
        (hSuffix text a mid hFirst)

theorem map
    (hSuffix : p.LeavesSuffix)
    (name : String)
    (f : α → Except Failure β) :
    (p.map name f).LeavesSuffix := by
  intro text b rest hRun
  rcases (run_map_iff p name f text rest b).mp hRun with
    ⟨a, hInner, _⟩
  exact hSuffix text a rest hInner

theorem tryMap
    (hSuffix : p.LeavesSuffix)
    (name : String)
    (f : α → Except Failure β) :
    (p.tryMap name f).LeavesSuffix := by
  intro text b rest hRun
  rcases (run_tryMap_iff p name f text rest b).mp hRun with
    ⟨a, hInner, _⟩
  exact hSuffix text a rest hInner

theorem recognize
    (hSuffix : p.LeavesSuffix) :
    p.recognize.LeavesSuffix := by
  intro text s rest hRun
  rcases (run_recognize_iff p text rest s).mp hRun with
    ⟨a, hInner, _⟩
  exact hSuffix text a rest hInner

/- Every alternative is tried on the text as it is. -/
theorem oneOf
    {ps : List (Parser α)}
    (hSuffix : ∀ p ∈ ps, p.LeavesSuffix) :
    (oneOf ps).LeavesSuffix := by
  intro text a rest hRun
  rcases (firstMatch_eq_ok_iff text ps (a, rest)).mp hRun with
    ⟨before, p, later, rfl, hMatch, _⟩
  exact hSuffix p (by simp) text a rest hMatch

/-
  What is recognized and what is left make up the text, as
  counting what is left tells where it begins.
-/
theorem run_recognize
    (hSuffix : p.LeavesSuffix)
    {text rest : List Char}
    {a : α}
    (hRun : p.run text = .ok (a, rest)) :
    ∃ consumed, consumed ++ rest = text ∧
      p.recognize.run text =
        .ok (String.ofList consumed, rest) := by
  rcases hSuffix text a rest hRun with ⟨consumed, rfl⟩
  refine ⟨consumed, rfl, ?_⟩
  rw [run_recognize_iff]
  exact ⟨a, hRun, by rw [take_append_sub]⟩

end LeavesSuffix

end Parser

------------------------------------------------------------
-- Rows
------------------------------------------------------------

namespace Row

variable {α β : Type}

/- A row leaves a suffix when what it skips does. -/
def LeavesSuffix
    (r : Row α) : Prop :=
  ∀ skip : List Char → List Char,
    (∀ text, skip text <:+ text) →
    ∀ text a rest,
      r.run skip text = .ok (a, rest) → rest <:+ text

theorem skipGap_suffix
    (text : List Char) :
    skipGap text <:+ text :=
  List.dropWhile_suffix Text.isGap

theorem leavesSuffix_ofList
    {ps : List (Parser α)}
    (hSuffix : ∀ p ∈ ps, p.LeavesSuffix) :
    (ofList ps).LeavesSuffix := by
  intro skip hSkip text as rest hRun
  induction ps generalizing text as with
  | nil =>
      cases hRun
      exact List.suffix_refl rest
  | cons p ps ih =>
      simp only [ofList, seenAs] at hRun
      split at hRun
      · cases hRun
      · rename_i r last hRow
        rcases r with ⟨a, as'⟩
        cases hRun
        rcases (run_cons_iff skip p _ text rest a as').mp hRow
          with ⟨mid, hFirst, hLater⟩
        have hMid := hSuffix p (by simp) _ a mid hFirst
        have hRest := ih
          (fun q hMember =>
            hSuffix q (List.mem_cons_of_mem p hMember))
          mid as' hLater
        exact hRest.trans (hMid.trans (hSkip text))

namespace LeavesSuffix

variable {r : Row α}

theorem sequence
    (hSuffix : r.LeavesSuffix)
    (build : α → Except Failure β) :
    (r.sequence build).LeavesSuffix := by
  intro text b rest hRun
  rcases (run_sequence_iff r build text rest b).mp hRun with
    ⟨a, hRow, _⟩
  exact hSuffix id List.suffix_refl text a rest hRow

theorem spaced
    (hSuffix : r.LeavesSuffix)
    (build : α → Except Failure β) :
    (r.spaced build).LeavesSuffix := by
  intro text b rest hRun
  rcases (run_spaced_iff r build text rest b).mp hRun with
    ⟨a, left, hRow, _, rfl⟩
  exact (skipGap_suffix left).trans
    (hSuffix skipGap skipGap_suffix text a left hRow)

end LeavesSuffix

end Row

------------------------------------------------------------
-- Expressions
------------------------------------------------------------

namespace Expression

variable {β : Type}

/- The parsers of a list leave suffixes if those of each do. -/
theorem forall_parsers
    {ps : List (Expression β)}
    {holds : Parser (Value β) → Prop}
    (hEach : ∀ p ∈ ps, holds p.parser) :
    ∀ q ∈ parsers ps, holds q := by
  rw [parsers_eq_map]
  exact List.forall_mem_map.mpr hEach

/-
  Whatever is combined leaves a suffix.  The induction is on
  how the expression is built.
-/
theorem Combined.leavesSuffix
    {e : Expression β}
    (hCombined : e.Combined) :
    e.parser.LeavesSuffix := by
  induction hCombined with
  | char c => exact (Parser.leavesSuffix_char c).seenAs _
  | anyChar asks face =>
      exact (Parser.leavesSuffix_askChar asks face).seenAs _
  | literal s => exact (Parser.leavesSuffix_literal s).seenAs _
  | finish => exact Parser.leavesSuffix_finish.seenAs _
  | skipGaps => exact Parser.leavesSuffix_skipGaps.seenAs _
  | skipBlanks =>
      exact Parser.leavesSuffix_skipBlanks.seenAs _
  | optional hInner ih => exact ih.optional.seenAs _
  | atLeast n hInner ih => exact (ih.atLeast n).seenAs _
  | map name f hInner ih => exact ih.map name f
  | tryMap name f hInner ih => exact ih.tryMap name f
  | recognize hInner ih => exact ih.recognize.seenAs _
  | oneOf hInner ih => exact .oneOf (forall_parsers ih)
  | sequence build hInner ih =>
      exact (Row.leavesSuffix_ofList
        (forall_parsers ih)).sequence build
  | spaced build hInner ih =>
      exact (Row.leavesSuffix_ofList
        (forall_parsers ih)).spaced build
  | complete hInner ih => exact Parser.leavesSuffix_complete _

/-
  For every expression that is built by the combinators, a
  run that succeeds leaves a suffix of its text, and the text
  recognized is what stands before it; a run that fails is
  recognized by the same failure.
-/
theorem recognize_consumed
    (e : Expression β)
    (hCombined : e.Combined)
    (text : List Char) :
    (∀ v rest, e.parser.run text = .ok (v, rest) →
      rest <:+ text ∧
      ∃ consumed, consumed ++ rest = text ∧
        (Expression.recognize e).parser.run text =
          .ok (.text (String.ofList consumed), rest)) ∧
    ∀ f, e.parser.run text = .error f →
      (Expression.recognize e).parser.run text =
        .error f := by
  have hSuffix := hCombined.leavesSuffix
  refine ⟨fun v rest hRun => ⟨hSuffix text v rest hRun, ?_⟩,
    fun f hRun => ?_⟩
  · rcases hSuffix.run_recognize hRun with
      ⟨consumed, hText, hRecognized⟩
    refine ⟨consumed, hText, ?_⟩
    simp only [parser, Parser.seenAs, hRecognized]
  · simp only [parser, Parser.seenAs, Parser.recognize, hRun]

/-
  The option reads the first character and fails, and its
  text is read again.
-/
theorem recognize_consumed_rewinding :
    let pair : Expression Unit :=
      .sequence [.char 'A', .char 'B'] tupled
    let e : Expression Unit :=
      .sequence [.optional pair, .char 'A'] tupled
    e.Combined ∧
      e.parser.run ['A', 'C'] =
        .ok (.tuple [.nothing, .text "A"], ['C']) ∧
      (Expression.recognize e).parser.run ['A', 'C'] =
        .ok (.text (String.ofList ['A']), ['C']) := by
  intro pair e
  have hPair : pair.Combined := by
    refine .sequence tupled ?_
    rw [List.forall_mem_cons, List.forall_mem_singleton]
    exact ⟨.char 'A', .char 'B'⟩
  have hCombined : e.Combined := by
    refine .sequence tupled ?_
    rw [List.forall_mem_cons, List.forall_mem_singleton]
    exact ⟨.optional hPair, .char 'A'⟩
  have hRun :
      e.parser.run ['A', 'C'] =
        .ok (.tuple [.nothing, .text "A"], ['C']) := rfl
  rcases (recognize_consumed e hCombined ['A', 'C']).1 _ _ hRun
    with ⟨_, consumed, hText, hRecognized⟩
  have hConsumed : consumed = ['A'] :=
    List.append_cancel_right hText
  rw [hConsumed] at hRecognized
  exact ⟨hCombined, hRun, hRecognized⟩

end Expression

end Lindenmayer
