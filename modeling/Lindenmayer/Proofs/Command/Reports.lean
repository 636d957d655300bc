import Lindenmayer.Proofs.Command.Outcome
import Lindenmayer.Proofs.Files.ZeroInPath
import Lindenmayer.Proofs.Grammar.PlainFile

/-
  How a command on a grammar that is read is reported.

  It succeeds, or is refused with a line for the user, or it
  breaks down.  There are few causes to break down of: no
  division by zero and no missing polyline is among them, nor
  anything that a grammar may contain but numbers that turn
  the turtle to an infinite heading.

  Key definitions include:
    * `Command.BreaksDown`

  Correctness is proven by:
    * `Command.reported_of_comesTo`
    * `Command.answer_reported`
    * `Command.answer_infiniteHeading`
-/

------------------------------------------------------------
-- Breakdowns
------------------------------------------------------------

namespace Lindenmayer

namespace Command

/-
  The causes that a request on a grammar breaks down of: a
  limit too large to count to, a turtle that is stuck, a zero
  in the path that is written to, and a blank value.
-/
inductive BreaksDown
    (t : Files.Tree)
    (r : Request)
    (l : LSystem) : Breakdown → Prop where
  | limitTooLarge
      {s : Subject}
      {n : Int}
      {raw : Bool}
      (hCommand : r.command = .expand s (some n) raw)
      (hLimit : greatestLimit < n) :
      BreaksDown t r l .limitTooLarge
  | infiniteHeading
      {s : Subject}
      {output : String}
      {margin : Float}
      {w : Unfolding Char}
      {begun u : Turtle}
      (hCommand : r.command = .render s output margin)
      (hUnfold : unfold s l = .ok w)
      (hStart : Turtle.start l.config = .ok begun)
      (hPlay :
        Renderer.play meaning (.turtle begun) w =
          ⟨.turtle u, some .infiniteHeading⟩)
      (hStuck : u.Stuck) :
      BreaksDown t r l (.drawing .infiniteHeading)
  | zeroInPath
      {s : Subject}
      {output : String}
      {margin : Float}
      (hCommand : r.command = .render s output margin)
      (hZero :
        Files.hasZero output = true ∨
          ∃ n ∈ t.place, Files.hasZero n = true) :
      BreaksDown t r l (.access .zeroInPath)
  | blank
      {b : Blank}
      (hBlank : b ∈ r.blanks) :
      BreaksDown t r l (.blank b)

/-
  A report is a success, a refusal with a line that tells its
  cause, or a breakdown.
-/
inductive Reported
    (Breaks : Breakdown → Prop) : Report → Prop where
  | success
      (output : String) :
      Reported Breaks (.success output)
  | refused
      (output : String)
      (cause : Refusal) :
      Reported Breaks (.ofStop output (.refused cause))
  | broken
      (output : String)
      {b : Breakdown}
      (hBreaks : Breaks b) :
      Reported Breaks (.ofStop output (.broken b))

/- The work of a command on a grammar, brought to its end. -/
theorem reported_of_comesTo
    {t u : Files.Tree}
    {r : Request}
    {l : LSystem}
    {w : Work}
    {report : Report}
    (hComes : r.command.ComesTo (.ok l) w)
    (hFinish : finish Files.Tree.disk w t = (report, u)) :
    Reported (BreaksDown t r l) report := by
  generalize hCommand : r.command = c at hComes
  cases hComes with
  | refused e =>
      rw [Work.stopped, finish_stopped] at hFinish
      cases hFinish
      exact .refused "" (.config e)
  | stuck hUnfold hStart hPlay hStuck =>
      rw [Work.stopped, finish_stopped] at hFinish
      cases hFinish
      exact .broken ""
        (.infiniteHeading hCommand hUnfold hStart hPlay hStuck)
  | tooLarge hLimit =>
      rw [Work.stopped, finish_stopped] at hFinish
      cases hFinish
      exact .broken "" (.limitTooLarge hCommand hLimit)
  | drawn hText =>
      rename_i s output margin text
      rw [finish_writing] at hFinish
      rcases hWrite : t.write output text with ⟨_ | _, v⟩
      · rename_i e
        rw [hWrite] at hFinish
        cases hFinish
        cases e with
        | fault f path => exact .refused "" (.access f path)
        | zeroInPath =>
            exact .broken ""
              (.zeroInPath hCommand
                (Files.Tree.zero_of_write hWrite))
      · rw [hWrite] at hFinish
        cases hFinish
        exact .success ""
  | expanded hText =>
      rw [finish_done] at hFinish
      cases hFinish
      exact .success _
  | sampled hText =>
      generalize account l ++ _ = printed at hFinish
      rw [finish_done] at hFinish
      cases hFinish
      exact .success _
  | unsampled hText =>
      rename_i e
      generalize account l = printed at hFinish
      rw [finish_stopped] at hFinish
      cases hFinish
      exact .refused _ (.config e)

------------------------------------------------------------
-- Answers
------------------------------------------------------------

/-
  Every command line that asks for a command on a grammar
  that is read is answered by a report, with exit code zero
  and no complaint, or with exit code two and a complaint, or
  breaking down of one of four causes.
-/
theorem answer_reported
    (t : Files.Tree)
    (words : List String)
    (r : Request)
    (l : LSystem)
    (hRequest : ofWords words = .ok r)
    (hGrammar :
      LSystem.ofFile r.command.subject.grammar
        (t.read r.command.subject.grammar) = .ok l) :
    ∃ report u,
      answer Files.Tree.disk words t = (.ok report, u) ∧
      ((report.result = .ok 0 ∧ report.complaint = "") ∨
        (report.result = .ok 2 ∧ report.complaint ≠ "") ∨
        ∃ b, report.result = .error b ∧
          BreaksDown t r l b) := by
  have hReported :
      ∃ report u,
        answer Files.Tree.disk words t = (.ok report, u) ∧
          Reported (BreaksDown t r l) report := by
    rcases answer_cases hRequest t hGrammar with
      ⟨report, u, hFinish, hAnswer⟩ | ⟨b, hBlank, hAnswer⟩
    · exact ⟨report, u, hAnswer,
        reported_of_comesTo (comesTo_work r.command (.ok l))
          hFinish⟩
    · exact ⟨_, t, hAnswer, .broken _ (.blank hBlank)⟩
  rcases hReported with ⟨report, u, hAnswer, hReported⟩
  refine ⟨report, u, hAnswer, ?_⟩
  cases hReported with
  | success output => exact .inl ⟨rfl, rfl⟩
  | refused output cause =>
      exact .inr (.inl ⟨rfl, cause.line_ne_empty⟩)
  | broken output hBreaks =>
      exact .inr (.inr ⟨_, rfl, hBreaks⟩)

/- A limit that is too large by one breaks the command. -/
theorem answer_reported_largeLimit :
    let rules : List (Rule Char) := [⟨'F', ['F', '+', 'F']⟩]
    let source := String.ofList (FileFormat.plain [] rules)
    let t : Files.Tree := ⟨[], [(["g"], .file source.toUTF8)]⟩
    let words := ["expand", "g", "--limit=9223372036854775808"]
    let r : Request :=
      ⟨.expand ⟨"g", "F", .depth 6⟩
        (some 9223372036854775808) false, []⟩
    let l : LSystem := ⟨.ofPairs rules, {}⟩
    ofWords words = .ok r ∧
      LSystem.ofFile "g" (t.read "g") = .ok l ∧
      answer Files.Tree.disk words t =
        (.ok ⟨"", "", .error .limitTooLarge⟩, t) ∧
      BreaksDown t r l .limitTooLarge := by
  intro rules source t words r l
  have hRequest : ofWords words = .ok r := by
    decide +kernel
  have hGrammar : LSystem.ofFile "g" (t.read "g") = .ok l :=
    FileFormat.ofFile_only_plain rules (by decide)
      (List.cons_ne_nil _ _)
  have hWork :
      r.work (.ok l) = .stopped (.broken .limitTooLarge) :=
    rfl
  have hStopped :
      answer Files.Tree.disk words t =
        (.ok ⟨"", "", .error .limitTooLarge⟩, t) :=
    answer_of_stopped hRequest hGrammar hWork
  refine ⟨hRequest, hGrammar, hStopped, ?_⟩
  rcases answer_reported t words r l hRequest hGrammar with
    ⟨report, u, hAnswer, hReported⟩
  cases hStopped.symm.trans hAnswer
  rcases hReported with
    ⟨hResult, _⟩ | ⟨hResult, _⟩ | ⟨b, hResult, hBreaks⟩
  · cases hResult
  · cases hResult
  · cases hResult
    exact hBreaks

/-
  Six branches turn the angle, and with it the heading, to
  infinity.  The command line and the grammar are accepted,
  but there is neither an exit code nor a complaint.
-/
theorem answer_infiniteHeading :
    let source :=
      "render:\nangle_multiplier = " ++
        "10000000000000000000000000000000000000000000000000" ++
        "000.0\nrules:\nF => [[[[[[+F\n"
    let t : Files.Tree := ⟨[], [(["g"], .file source.toUTF8)]⟩
    let words := ["render", "g", "o.svg", "--iterations", "1"]
    (LSystem.ofFile "g" (t.read "g")).isOk = true ∧
      (answer Files.Tree.disk words t).1.map Report.result =
        .ok (.error (.drawing .infiniteHeading)) ∧
      (answer Files.Tree.disk words t).1.map Report.complaint =
        .ok "" := by
  decide +kernel

end Command

end Lindenmayer
