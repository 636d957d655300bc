import Lindenmayer.Proofs.Parser.Watching

/-
  Only parse errors are recovered from.

  Once any other failure is raised in a run, nothing begins
  any more, and the failure is handed on until it is the
  outcome.  Only the function of a map that may reject its
  value has its failures turned into parse errors.

  Key definitions include:
    * `Moment.fatal?`
    * `BreaksOff`
    * `Watched.Prompt`
    * `Watched.EndsAtFirst`

  Correctness is proven by:
    * `Watched.Prompt.bind`
    * `Watched.Prompt.call`
    * `Watched.Prompt.attempt`
    * `Watched.Prompt.endsAtFirst`
    * `Expression.Combined.prompt_watch`
    * `Expression.only_parse_errors_recovered`
-/

------------------------------------------------------------
-- Fatal Failures
------------------------------------------------------------

namespace Lindenmayer

/- A failure that nothing recovers from. -/
def Failure.fatal?
    (f : Failure) : Option Failure :=
  if f.isRecoverable then none else some f

theorem Failure.fatal?_eq_some_iff
    (f g : Failure) :
    f.fatal? = some g ↔ f = g ∧ g.isRecoverable = false := by
  cases hRecoverable : f.isRecoverable with
  | true =>
      simp only [Failure.fatal?, hRecoverable, if_true,
        reduceCtorEq, false_iff]
      rintro ⟨rfl, hFatal⟩
      rw [hRecoverable] at hFatal
      cases hFatal
  | false =>
      simp only [Failure.fatal?, hRecoverable,
        Bool.false_eq_true, if_false, Option.some.injEq]
      constructor
      · rintro rfl
        exact ⟨rfl, hRecoverable⟩
      · rintro ⟨hSame, _⟩
        exact hSame

/-
  The failure that comes into a run at a moment and is not
  recovered from.  A rejected value counts by the failure that
  is made of the rejection.
-/
def Moment.fatal? : Moment → Option Failure
  | .begins => none
  | .returns => none
  | .raises f => f.fatal?
  | .rejects f => f.rejection.fatal?

/- Nothing fatal happens at some moments. -/
def Calm
    (moments : List Moment) : Prop :=
  ∀ m ∈ moments, m.fatal? = none

/-
  A record breaks off by a failure when it is calm up to the
  moment at which the failure comes in, and the failure is
  only handed on from there.
-/
inductive BreaksOff
    (f : Failure) : List Moment → Prop where
  | here
      {m : Moment}
      (k : Nat)
      (hFatal : m.fatal? = some f) :
      BreaksOff f (m :: List.replicate k (.raises f))
  | later
      {m : Moment}
      {moments : List Moment}
      (hCalm : m.fatal? = none)
      (hLater : BreaksOff f moments) :
      BreaksOff f (m :: moments)

namespace BreaksOff

variable {f : Failure}
variable {moments : List Moment}

/- What is calm may stand before. -/
theorem prepend
    {before : List Moment}
    (hBreaks : BreaksOff f moments)
    (hCalm : Calm before) :
    BreaksOff f (before ++ moments) := by
  induction before with
  | nil => exact hBreaks
  | cons m before ih =>
      refine .later (hCalm m List.mem_cons_self) (ih ?_)
      intro m' hMember
      exact hCalm m' (List.mem_cons_of_mem m hMember)

/- The failure may be handed on once more. -/
theorem handOn
    (hBreaks : BreaksOff f moments) :
    BreaksOff f (moments ++ [.raises f]) := by
  induction hBreaks with
  | here k hFatal =>
      rw [List.cons_append, ← List.replicate_succ']
      exact .here (k + 1) hFatal
  | later hCalm _ ih => exact .later hCalm ih

/- The first fatal failure is the one. -/
theorem findSome?_fatal?
    (hBreaks : BreaksOff f moments) :
    moments.findSome? Moment.fatal? = some f := by
  induction hBreaks with
  | here k hFatal =>
      rw [List.findSome?_cons, hFatal]
  | later hCalm _ ih =>
      rw [List.findSome?_cons, hCalm]
      exact ih

/-
  A fatal moment brings in the failure, which is only handed
  on after it.
-/
theorem eq_raises_of_fatal?
    (hBreaks : BreaksOff f moments)
    {before after : List Moment}
    {m : Moment}
    {g : Failure}
    (hMoments : moments = before ++ m :: after)
    (hFatal : m.fatal? = some g) :
    g = f ∧ ∀ m' ∈ after, m' = .raises f := by
  induction hBreaks generalizing before with
  | @here m₀ k hFirst =>
      cases before with
      | nil =>
          rw [List.nil_append, List.cons.injEq] at hMoments
          rcases hMoments with ⟨rfl, rfl⟩
          rw [hFirst, Option.some.injEq] at hFatal
          exact ⟨hFatal.symm,
            fun m' hMember => List.eq_of_mem_replicate hMember⟩
      | cons m₁ before =>
          rw [List.cons_append, List.cons.injEq] at hMoments
          have hHanded :
              ∀ m' ∈ before ++ m :: after,
                m' = .raises f := by
            rw [← hMoments.2]
            exact fun m' hMember =>
              List.eq_of_mem_replicate hMember
          rw [List.forall_mem_append, List.forall_mem_cons]
            at hHanded
          rcases hHanded with ⟨_, rfl, hAfter⟩
          exact ⟨((f.fatal?_eq_some_iff g).mp hFatal).1.symm,
            hAfter⟩
  | later hCalm _ ih =>
      cases before with
      | nil =>
          rw [List.nil_append, List.cons.injEq] at hMoments
          rw [hMoments.1, hFatal] at hCalm
          cases hCalm
      | cons m₁ before =>
          rw [List.cons_append, List.cons.injEq] at hMoments
          exact ih hMoments.2

end BreaksOff

------------------------------------------------------------
-- Prompt Runs
------------------------------------------------------------

namespace Watched

variable {α β : Type}

/- The failure that ends a run, unless it is recoverable. -/
def fatal?
    (w : Watched α) : Option Failure :=
  match w.outcome with
  | .ok _ => none
  | .error f => f.fatal?

/-
  A run is prompt when its record breaks off by the fatal
  failure that it ends with, and is calm without one.  The
  failure of a run that never ends comes in at no moment.
-/
structure Prompt
    (w : Watched α) : Prop where
  calm : w.fatal? = none → Calm w.moments
  breaksOff :
    ∀ f, w.fatal? = some f →
      f = .endless ∨ BreaksOff f w.moments

theorem prompt_silent
    (r : Except Failure α)
    (hHarmless :
      ∀ f, r = .error f → f.isRecoverable ∨ f = .endless) :
    (silent r).Prompt := by
  refine ⟨fun _ m hMember => absurd hMember List.not_mem_nil,
    fun f hFatal => ?_⟩
  cases r with
  | ok a => cases hFatal
  | error g =>
      rcases (g.fatal?_eq_some_iff f).mp hFatal with
        ⟨rfl, hFatal⟩
      rcases hHarmless g rfl with hRecoverable | hEndless
      · rw [hRecoverable] at hFatal
        cases hFatal
      · exact .inl hEndless

theorem prompt_ok
    (a : α) :
    (silent (.ok a)).Prompt :=
  prompt_silent _ fun _ hError => by cases hError

theorem prompt_parseError
    (e : ParseError) :
    (silent (.error (.parse e) : Except Failure α)).Prompt :=
  prompt_silent _ fun _ hError => by
    cases hError
    exact .inl rfl

/- The call of a function may bring in any failure. -/
theorem prompt_function
    (r : Except Failure α) :
    (silent r).call.Prompt := by
  cases r with
  | ok a =>
      refine ⟨fun _ m hMember => ?_, fun f hFatal => by
        cases hFatal⟩
      simp only [call, silent, Moment.ending, List.nil_append,
        List.mem_cons, List.not_mem_nil, or_false] at hMember
      rcases hMember with rfl | rfl <;> rfl
  | error g =>
      refine ⟨fun hCalm m hMember => ?_, fun f hFatal => ?_⟩
      · simp only [call, silent, Moment.ending,
          List.nil_append, List.mem_cons, List.not_mem_nil,
          or_false] at hMember
        rcases hMember with rfl | rfl
        · rfl
        · exact hCalm
      · rcases (g.fatal?_eq_some_iff f).mp hFatal with
          ⟨rfl, _⟩
        exact .inr (.later rfl (.here 0 hFatal))

/- A rejecting function brings in what its rejections are. -/
theorem prompt_callRejecting
    (r : Except Failure α) :
    (callRejecting r).Prompt := by
  cases r with
  | ok a =>
      refine ⟨fun _ m hMember => ?_, fun f hFatal => by
        cases hFatal⟩
      simp only [callRejecting, List.mem_cons,
        List.not_mem_nil, or_false] at hMember
      rcases hMember with rfl | rfl <;> rfl
  | error g =>
      refine ⟨fun hCalm m hMember => ?_, fun f hFatal => ?_⟩
      · simp only [callRejecting, List.mem_cons,
          List.not_mem_nil, or_false] at hMember
        rcases hMember with rfl | rfl
        · rfl
        · exact hCalm
      · exact .inr (.later rfl (.here 0 hFatal))

namespace Prompt

variable {w : Watched α}

/- Going on is prompt if nothing is done after a failure. -/
theorem bind
    {next : α → Watched β}
    (hPrompt : w.Prompt)
    (hNext : ∀ a, (next a).Prompt) :
    (w.bind next).Prompt := by
  rcases w with ⟨moments, r⟩
  cases r with
  | error g => exact ⟨hPrompt.calm, hPrompt.breaksOff⟩
  | ok a =>
      have hBefore : Calm moments := hPrompt.calm rfl
      refine ⟨fun hCalm m hMember => ?_, fun f hFatal => ?_⟩
      · rcases List.mem_append.mp hMember with
          hFirst | hSecond
        · exact hBefore m hFirst
        · exact (hNext a).calm hCalm m hSecond
      · rcases (hNext a).breaksOff f hFatal with
          hEndless | hBreaks
        · exact .inl hEndless
        · exact .inr (hBreaks.prepend hBefore)

/- A part of a run hands its failure on. -/
theorem call
    (hPrompt : w.Prompt) :
    w.call.Prompt := by
  have hBegins : Calm [.begins] := by
    intro m hMember
    rw [List.mem_singleton.mp hMember]
    rfl
  refine ⟨fun hCalm m hMember => ?_, fun f hFatal => ?_⟩
  · simp only [Watched.call, List.mem_cons, List.mem_append,
      List.not_mem_nil, or_false] at hMember
    rcases hMember with rfl | hInside | rfl
    · rfl
    · exact hPrompt.calm hCalm m hInside
    · rcases w with ⟨moments, r⟩
      cases r with
      | ok a => rfl
      | error g => exact hCalm
  · rcases hPrompt.breaksOff f hFatal with hEndless | hBreaks
    · exact .inl hEndless
    · rcases w with ⟨moments, r⟩
      cases r with
      | ok a => cases hFatal
      | error g =>
          rcases (g.fatal?_eq_some_iff f).mp hFatal with
            ⟨rfl, _⟩
          exact .inr (hBreaks.handOn.prepend hBegins)

/- Only what is not fatal is recovered from. -/
theorem attempt
    (hPrompt : w.Prompt) :
    w.attempt.Prompt := by
  rcases w with ⟨moments, r⟩
  cases r with
  | ok a => exact ⟨hPrompt.calm, fun f hFatal => by cases hFatal⟩
  | error g =>
      cases g with
      | parse e =>
          exact ⟨hPrompt.calm, fun f hFatal => by cases hFatal⟩
      | config e => exact ⟨hPrompt.calm, hPrompt.breaksOff⟩
      | value m => exact ⟨hPrompt.calm, hPrompt.breaksOff⟩
      | key name => exact ⟨hPrompt.calm, hPrompt.breaksOff⟩
      | endless => exact ⟨hPrompt.calm, hPrompt.breaksOff⟩

end Prompt

/-
  What happens in a run tells how it ends.  It ends with an
  irrecoverable failure exactly when that is the first one to
  come in, and then no part and no function begins any more,
  as the failure is only handed on.
-/
structure EndsAtFirst
    (w : Watched α) : Prop where
  outcome_iff :
    ∀ f, w.moments.findSome? Moment.fatal? = some f ↔
      w.outcome = .error f ∧ f.isRecoverable = false
  handed_on :
    ∀ before m after f,
      w.moments = before ++ m :: after →
      m.fatal? = some f →
      w.outcome = .error f ∧ ∀ m' ∈ after, m' = .raises f

theorem fatal?_eq_some_iff
    (w : Watched α)
    (f : Failure) :
    w.fatal? = some f ↔
      w.outcome = .error f ∧ f.isRecoverable = false := by
  rw [fatal?]
  cases w.outcome with
  | ok a => simp
  | error g =>
      simp only [g.fatal?_eq_some_iff, Except.error.injEq]

/- A prompt run that ends does so at the first failure. -/
theorem Prompt.endsAtFirst
    {w : Watched α}
    (hPrompt : w.Prompt)
    (hEnds : w.outcome ≠ .error .endless) :
    w.EndsAtFirst := by
  have hBreaks :
      ∀ f, w.fatal? = some f → BreaksOff f w.moments := by
    intro f hFatal
    rcases hPrompt.breaksOff f hFatal with rfl | hBreaks
    · exact absurd ((w.fatal?_eq_some_iff _).mp hFatal).1 hEnds
    · exact hBreaks
  have hOutcome :
      ∀ m ∈ w.moments, ∀ f, m.fatal? = some f →
        ∃ g, w.fatal? = some g := by
    intro m hMember f hFatal
    cases hNone : w.fatal? with
    | some g => exact ⟨g, rfl⟩
    | none =>
        rw [hPrompt.calm hNone m hMember] at hFatal
        cases hFatal
  refine ⟨fun f => ?_, fun before m after f hMoments hFatal => ?_⟩
  · rw [← w.fatal?_eq_some_iff]
    constructor
    · intro hFirst
      rcases List.exists_of_findSome?_eq_some hFirst with
        ⟨m, hMember, hFatal⟩
      rcases hOutcome m hMember f hFatal with ⟨g, hEnd⟩
      rw [hEnd, ← hFirst, (hBreaks g hEnd).findSome?_fatal?]
    · intro hEnd
      exact (hBreaks f hEnd).findSome?_fatal?
  · have hMember : m ∈ w.moments := by
      rw [hMoments]
      simp
    rcases hOutcome m hMember f hFatal with ⟨g, hEnd⟩
    rcases (hBreaks g hEnd).eq_raises_of_fatal? hMoments hFatal
      with ⟨rfl, hAfter⟩
    exact ⟨((w.fatal?_eq_some_iff f).mp hEnd).1, hAfter⟩

end Watched

------------------------------------------------------------
-- Prompt Combinators
------------------------------------------------------------

namespace Watcher

variable {α β : Type}

/- A watcher is prompt when the runs on all texts are. -/
def Prompt
    (w : Watcher α) : Prop :=
  ∀ text, (w text).Prompt

theorem prompt_primitive
    {p : Parser α}
    {es : List ParseError}
    (hFails : p.FailsBy es) :
    (primitive p).Prompt := by
  intro text
  apply Watched.prompt_silent
  exact fun f hError => .inl (hFails.isRecoverable hError)

theorem prompt_askChar
    (asks : Char → Except Failure Bool) :
    (askChar asks).Prompt := by
  intro text
  cases text with
  | nil => exact Watched.prompt_parseError _
  | cons c rest =>
      refine (Watched.prompt_function (asks c)).bind
        fun holds => ?_
      cases holds with
      | true => exact Watched.prompt_ok _
      | false => exact Watched.prompt_parseError _

theorem prompt_skipNothing
    (text : List Char) :
    (skipNothing text).Prompt :=
  Watched.prompt_ok text

theorem prompt_skipGap
    (text : List Char) :
    (skipGap text).Prompt :=
  Watched.prompt_function _

namespace Prompt

variable {w : Watcher α}

theorem seenAs
    (hPrompt : w.Prompt)
    (f : α → β) :
    (w.seenAs f).Prompt :=
  fun text => (hPrompt text).bind fun _ => Watched.prompt_ok _

theorem optional
    (hPrompt : w.Prompt) :
    w.optional.Prompt := by
  intro text
  refine (hPrompt text).call.attempt.bind fun o => ?_
  cases o with
  | none => exact Watched.prompt_ok _
  | some r => exact Watched.prompt_ok _

theorem times
    (hPrompt : w.Prompt)
    (n : Nat) :
    (w.times n).Prompt := by
  induction n with
  | zero => exact fun _ => Watched.prompt_ok _
  | succ n ih =>
      exact fun text =>
        (hPrompt text).call.bind fun r =>
          (ih r.2).bind fun _ => Watched.prompt_ok _

/-
  The induction is on the length of the text.  No failure
  comes in where a match consumes nothing: that run is one
  which never ends.
-/
theorem greedy
    (hPrompt : w.Prompt) :
    Watcher.Prompt w.greedy := by
  intro text
  induction text using Watcher.greedy.induct with
  | case1 text ih =>
      rw [Watcher.greedy]
      refine (hPrompt text).call.attempt.bind fun o => ?_
      cases o with
      | none => exact Watched.prompt_ok _
      | some r =>
          dsimp only
          split
          · rename_i hShorter
            exact (ih r hShorter).bind fun _ =>
              Watched.prompt_ok _
          · apply Watched.prompt_silent
            intro f hEndless
            cases hEndless
            exact .inr rfl

theorem atLeast
    (hPrompt : w.Prompt)
    (n : Nat) :
    (w.atLeast n).Prompt :=
  fun text =>
    (hPrompt.times n text).bind fun r =>
      (hPrompt.greedy r.2).bind fun _ => Watched.prompt_ok _

theorem map
    (hPrompt : w.Prompt)
    (f : α → Except Failure β) :
    (w.map f).Prompt :=
  fun text =>
    (hPrompt text).call.bind fun r =>
      (Watched.prompt_function (f r.1)).bind fun _ =>
        Watched.prompt_ok _

theorem tryMap
    (hPrompt : w.Prompt)
    (f : α → Except Failure β) :
    (w.tryMap f).Prompt :=
  fun text =>
    (hPrompt text).call.bind fun r =>
      (Watched.prompt_callRejecting (f r.1)).bind fun _ =>
        Watched.prompt_ok _

theorem recognize
    (hPrompt : w.Prompt) :
    w.recognize.Prompt :=
  fun text =>
    (hPrompt text).call.bind fun _ => Watched.prompt_ok _

theorem complete
    (hPrompt : w.Prompt) :
    w.complete.Prompt :=
  fun text =>
    (hPrompt text).call.bind fun r =>
      (prompt_primitive Parser.failsBy_finish r.2).call.bind
        fun _ => Watched.prompt_ok _

end Prompt

variable {ws : List (Watcher α)}

/- Alternatives are tried after parse errors alone. -/
theorem prompt_firstMatch
    (hPrompt : ∀ w ∈ ws, w.Prompt)
    (text : List Char) :
    (firstMatch text ws).Prompt := by
  induction ws with
  | nil => exact Watched.prompt_parseError _
  | cons w ws ih =>
      rw [List.forall_mem_cons] at hPrompt
      refine (hPrompt.1 text).call.attempt.bind fun o => ?_
      cases o with
      | none => exact ih hPrompt.2
      | some r => exact Watched.prompt_ok _

theorem prompt_row
    {skip : List Char → Watched (List Char)}
    (hSkip : ∀ text, (skip text).Prompt)
    (hPrompt : ∀ w ∈ ws, w.Prompt) :
    (row skip ws).Prompt := by
  induction ws with
  | nil => exact fun _ => Watched.prompt_ok _
  | cons w ws ih =>
      rw [List.forall_mem_cons] at hPrompt
      exact fun text =>
        (hSkip text).bind fun text' =>
          (hPrompt.1 text').call.bind fun r =>
            (ih hPrompt.2 r.2).bind fun _ =>
              Watched.prompt_ok _

theorem prompt_sequence
    {skip : List Char → Watched (List Char)}
    (hSkip : ∀ text, (skip text).Prompt)
    (hPrompt : ∀ w ∈ ws, w.Prompt)
    (build : List α → Except Failure β) :
    (sequence skip ws build).Prompt :=
  fun text =>
    (prompt_row hSkip hPrompt text).bind fun r =>
      (hSkip r.2).bind fun _ =>
        (Watched.prompt_function (build r.1)).bind fun _ =>
          Watched.prompt_ok _

end Watcher

------------------------------------------------------------
-- Expressions
------------------------------------------------------------

namespace Expression

variable {β : Type}

theorem forall_watchAll
    {ps : List (Expression β)}
    (hPrompt : ∀ p ∈ ps, p.watch.Prompt) :
    ∀ w ∈ watchAll ps, w.Prompt := by
  rw [watchAll_eq_map]
  exact List.forall_mem_map.mpr hPrompt

/-
  Whatever is combined is prompt.  The induction is on how
  the expression is built.
-/
theorem Combined.prompt_watch
    {e : Expression β}
    (hCombined : e.Combined) :
    e.watch.Prompt := by
  induction hCombined with
  | char c =>
      exact Watcher.prompt_primitive
        ((Parser.failsBy_char c).seenAs _)
  | anyChar asks face =>
      exact Watcher.Prompt.seenAs
        (Watcher.prompt_askChar asks) _
  | literal s =>
      exact Watcher.prompt_primitive
        ((Parser.failsBy_literal s).seenAs _)
  | finish =>
      exact Watcher.prompt_primitive
        (Parser.failsBy_finish.seenAs _)
  | skipGaps =>
      exact Watcher.prompt_primitive
        (Parser.failsBy_skipGaps.seenAs _)
  | skipBlanks =>
      exact Watcher.prompt_primitive
        (Parser.failsBy_skipBlanks.seenAs _)
  | optional hInner ih => exact ih.optional.seenAs _
  | atLeast n hInner ih => exact (ih.atLeast n).seenAs _
  | map name f hInner ih => exact ih.map f
  | tryMap name f hInner ih => exact ih.tryMap f
  | recognize hInner ih => exact ih.recognize.seenAs _
  | oneOf hInner ih =>
      exact Watcher.prompt_firstMatch (forall_watchAll ih)
  | sequence build hInner ih =>
      exact Watcher.prompt_sequence Watcher.prompt_skipNothing
        (forall_watchAll ih) build
  | spaced build hInner ih =>
      exact Watcher.prompt_sequence Watcher.prompt_skipGap
        (forall_watchAll ih) build
  | complete hInner ih => exact ih.complete

/-
  Only parse errors are recovered from, in every expression
  that is built by the combinators and on every text where
  its run ends.  The first irrecoverable failure that comes
  into the run is its outcome, and nothing begins after it;
  without one the run ends well or by a parse error.  Only
  what the function of a map that may reject its value raises
  is turned into a parse error, if it is a value or
  configuration error.  So options and repetitions of any
  number have no parse error, and alternatives have one.
-/
theorem only_parse_errors_recovered
    (e : Expression β)
    (hCombined : e.Combined)
    (text : List Char)
    (hEnds : e.parser.run text ≠ .error .endless) :
    (e.watch text).outcome = e.parser.run text ∧
    (e.watch text).EndsAtFirst ∧
    (∀ p name f v rest g,
      p.parser.run text = .ok (v, rest) →
      f v = .error g →
      (Expression.tryMap p name f : Expression β).parser.run
          text =
        .error
          (match g with
          | .value m => .parse (.custom m)
          | .config c => .parse (.custom c.message)
          | .parse err => .parse err
          | .key k => .key k
          | .endless => .endless)) ∧
    (∀ (p : Expression β) err,
      (Expression.optional p).parser.run text ≠
        .error (.parse err)) ∧
    (∀ (p : Expression β) err,
      (Expression.atLeast 0 p).parser.run text ≠
        .error (.parse err)) ∧
    ∀ (ps : List (Expression β)) err,
      (Expression.oneOf ps).parser.run text =
          .error (.parse err) →
        err = .noAlternative := by
  have hOutcome := hCombined.shows_watch text
  refine ⟨hOutcome, ?_, ?_, fun p err hError => ?_,
    fun p err hError => ?_, fun ps err hError => ?_⟩
  · apply (hCombined.prompt_watch text).endsAtFirst
    rw [hOutcome]
    exact hEnds
  · intro p name f v rest g hRun hValue
    simp only [parser, Parser.tryMap, hRun, hValue]
    cases g <;> rfl
  · refine p.parser.run_optional_ne_parse text err ?_
    exact Parser.error_of_seenAs hError
  · refine p.parser.run_many_ne_parse text err ?_
    exact Parser.error_of_seenAs hError
  · exact Parser.eq_noAlternative_of_firstMatch hError

/-
  A rejected value is recovered from, so the next alternative
  is tried; the failure there is the end.
-/
theorem only_parse_errors_recovered_alternatives :
    let rejecting : Expression Unit :=
      .tryMap (.char 'a') "f" fun _ => .error (.value "no")
    let failing : Expression Unit :=
      .map (.char 'a') "g" fun _ => .error (.key "k")
    let e : Expression Unit :=
      .oneOf [rejecting, failing, .char 'a']
    e.Combined ∧ e.parser.run ['a'] = .error (.key "k") ∧
      (e.watch ['a']).EndsAtFirst := by
  intro rejecting failing e
  have hCombined : e.Combined := by
    refine .oneOf ?_
    rw [List.forall_mem_cons, List.forall_mem_cons,
      List.forall_mem_singleton]
    exact ⟨.tryMap _ _ (.char 'a'), .map _ _ (.char 'a'),
      .char 'a'⟩
  have hRun : e.parser.run ['a'] = .error (.key "k") := rfl
  have hEnds : e.parser.run ['a'] ≠ .error .endless := by
    rw [hRun]
    exact fun hSame => by cases hSame
  exact ⟨hCombined, hRun,
    (only_parse_errors_recovered e hCombined ['a'] hEnds).2.1⟩

end Expression

end Lindenmayer
