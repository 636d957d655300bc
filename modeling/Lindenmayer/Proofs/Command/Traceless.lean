import Lindenmayer.Proofs.Command.Outcome

/-
  A command that fails leaves nothing behind.

  Nothing is printed by a drawing, and nothing by an expansion
  before all of its text is there.  The tree of files is only
  touched to write a document that is complete, so that it is
  the same as before unless this writing fails.

  Key definitions include:
    * `Command.FailsTraceless`

  Correctness is proven by:
    * `Command.failsTraceless_of_comesTo`
    * `Command.failure_leaves_nothing`
-/

------------------------------------------------------------
-- Failing Works
------------------------------------------------------------

namespace Lindenmayer

namespace Command

/-
  What a failing command leaves: nothing printed, and the
  tree as it was, or as a failed writing of a whole drawing
  leaves it.
-/
structure FailsTraceless
    (c : Command)
    (read : Except LoadError LSystem)
    (t u : Files.Tree)
    (report : Report) : Prop where
  output : report.output = ""
  tree :
    u = t ∨
      ∃ s path margin l text f place,
        c = .render s path margin ∧
        read = .ok l ∧
        renderText s margin l = .ok text ∧
        t.write path text = (.error (.fault f place), u) ∧
        report.complaint = (Refusal.access f place).line

/- A stop before anything is printed. -/
theorem failsTraceless_stopped
    {c : Command}
    {read : Except LoadError LSystem}
    {t u : Files.Tree}
    {report : Report}
    {s : Stop}
    (hFinish :
      finish Files.Tree.disk (.stopped s) t = (report, u)) :
    FailsTraceless c read t u report := by
  rw [Work.stopped, finish_stopped] at hFinish
  cases s <;> cases hFinish <;> exact ⟨rfl, .inl rfl⟩

/-
  Of all that a command may come to, an account alone may be
  printed before it fails.
-/
theorem failsTraceless_of_comesTo
    {c : Command}
    {read : Except LoadError LSystem}
    {t u : Files.Tree}
    {w : Work}
    {report : Report}
    (hComes : c.ComesTo read w)
    (hFinish : finish Files.Tree.disk w t = (report, u))
    (hFailed : report.result = .ok Refusal.code)
    (hSilent : ∀ s, c ≠ .validate s) :
    FailsTraceless c read t u report := by
  cases hComes with
  | unread c e => exact failsTraceless_stopped hFinish
  | refused e => exact failsTraceless_stopped hFinish
  | stuck => exact failsTraceless_stopped hFinish
  | tooLarge => exact failsTraceless_stopped hFinish
  | drawn hText =>
      rename_i s path margin l text
      rw [finish_writing] at hFinish
      rcases hWrite : t.write path text with ⟨_ | _, v⟩
      · rename_i e
        rw [hWrite] at hFinish
        cases hFinish
        cases e with
        | fault f place =>
            exact ⟨rfl, .inr ⟨s, path, margin, l, text, f,
              place, rfl, rfl, hText, hWrite, rfl⟩⟩
        | zeroInPath => cases hFailed
      · rw [hWrite] at hFinish
        cases hFinish
        cases hFailed
  | expanded hText =>
      rw [finish_done] at hFinish
      cases hFinish
      cases hFailed
  | sampled hText => exact absurd rfl (hSilent _)
  | unsampled hText => exact absurd rfl (hSilent _)

------------------------------------------------------------
-- Failing Commands
------------------------------------------------------------

/-
  When a drawing ends with exit code two, nothing is printed,
  and the tree of files is as it was before, unless what has
  failed is the writing of the document.  When an expansion
  does, nothing is printed, and the tree is as it was before.
-/
theorem failure_leaves_nothing
    (t u : Files.Tree)
    (words : List String)
    (r : Request)
    (report : Report)
    (hRequest : ofWords words = .ok r)
    (hAnswer :
      answer Files.Tree.disk words t = (.ok report, u))
    (hFailed : report.result = .ok 2) :
    (∀ s path margin, r.command = .render s path margin →
      report.output = "" ∧
        (u = t ∨
          ∃ l text f place,
            LSystem.ofFile s.grammar (t.read s.grammar) =
                .ok l ∧
              renderText s margin l = .ok text ∧
              t.write path text =
                (.error (.fault f place), u) ∧
              report.complaint =
                (Refusal.access f place).line)) ∧
    ∀ s limit raw, r.command = .expand s limit raw →
      report.output = "" ∧ u = t := by
  have hTraceless :
      (∀ s, r.command ≠ .validate s) →
        FailsTraceless r.command
          (LSystem.ofFile r.command.subject.grammar
            (t.read r.command.subject.grammar))
          t u report := by
    intro hSilent
    rcases answer_cases hRequest t rfl with
      ⟨report', u', hFinish, hAnswer'⟩ | ⟨b, _, hAnswer'⟩
    · rw [hAnswer'] at hAnswer
      cases hAnswer
      exact failsTraceless_of_comesTo (comesTo_work _ _)
        hFinish hFailed hSilent
    · rw [hAnswer'] at hAnswer
      cases hAnswer
      cases hFailed
  constructor
  · intro s path margin hCommand
    rw [hCommand] at hTraceless
    rcases hTraceless (fun _ hOther => by cases hOther) with
      ⟨hOutput, hTree⟩
    refine ⟨hOutput, hTree.imp_right ?_⟩
    rintro ⟨_, _, _, l, text, f, place, hSame, hRead, hText,
      hWrite, hLine⟩
    cases hSame
    exact ⟨l, text, f, place, hRead, hText, hWrite, hLine⟩
  · intro s limit raw hCommand
    rw [hCommand] at hTraceless
    rcases hTraceless (fun _ hOther => by cases hOther) with
      ⟨hOutput, hSame | ⟨_, _, _, _, _, _, _, hOther, _⟩⟩
    · exact ⟨hOutput, hSame⟩
    · cases hOther

/- The turtle draws once before it finds nothing to pop. -/
theorem failure_leaves_nothing_midway :
    let source := "render:\nrules:\nF => F ]\n"
    let t : Files.Tree := ⟨[], [(["g"], .file source.toUTF8)]⟩
    let words := ["render", "g", "o.svg", "--iterations", "1"]
    ∃ r report u, ofWords words = .ok r ∧
      answer Files.Tree.disk words t = (.ok report, u) ∧
      report.result = .ok 2 ∧
      report.complaint =
        "Config error: pop encountered with empty stack\n" ∧
      report.output = "" ∧ u = t := by
  intro source t words
  let r : Request :=
    ⟨.render ⟨"g", "F", .iterations 1⟩ "o.svg" 10.0, []⟩
  have hRequest : ofWords words = .ok r := by
    decide +kernel
  have hReport :
      (answer Files.Tree.disk words t).1.map
          (fun a => (a.result, a.complaint)) =
        .ok (.ok 2,
          "Config error: pop encountered with empty stack\n") :=
    by decide +kernel
  rcases hAnswer : answer Files.Tree.disk words t with
    ⟨_ | report, u⟩
  · rw [hAnswer] at hReport
    cases hReport
  · rw [hAnswer] at hReport
    simp only [Except.map, Except.ok.injEq,
      Prod.mk.injEq] at hReport
    rcases (failure_leaves_nothing t u words r report hRequest
        hAnswer hReport.1).1 _ _ _ rfl with
      ⟨hOutput, hSame | ⟨_, _, f, place, _, _, _, hLine⟩⟩
    · exact ⟨r, report, u, hRequest, rfl, hReport.1,
        hReport.2, hOutput, hSame⟩
    · rw [hReport.2] at hLine
      have hHead := congrArg (fun s => s.toList.head?) hLine
      simp [Refusal.line] at hHead

end Command

end Lindenmayer
