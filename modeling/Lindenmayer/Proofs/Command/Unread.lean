import Lindenmayer.Proofs.Command.Outcome
import Lindenmayer.Proofs.Grammar.Loading

/-
  How a command is answered whose grammar is not read.

  A file that cannot be accessed and a text that is no grammar
  are told to the user, whatever the command.  Bytes that are
  no text, and a zero in the path, are not: they break the
  command down.  A negative limit is refused before anything
  is read.

  Key definitions include:
    * `Command.Unread`

  Correctness is proven by:
    * `Command.unread_of_hasNegativeLimit`
    * `Command.unread_of_load`
    * `Command.unread_grammar_answered`
    * `Command.notText_breaks_down`
-/

------------------------------------------------------------
-- Answers
------------------------------------------------------------

namespace Lindenmayer

namespace Command

/-
  The reports on a request whose grammar is not read, by the
  cause.
-/
inductive Unread
    (r : Request) : LoadError → Report → Prop where
  | told
      {e : ParseError}
      (hLimit : r.command.hasNegativeLimit = false) :
      Unread r (.failure (.parse e))
        ⟨"", (Refusal.grammar e).line, .ok 2⟩
  | broken
      {e : LoadError}
      (hLimit : r.command.hasNegativeLimit = false)
      (hError : e = .notText ∨ e = .zeroInPath) :
      Unread r e ⟨"", "", .error (.load e)⟩
  | negativeLimit
      {e : LoadError}
      (hLimit : r.command.hasNegativeLimit = true)
      (hNumber : .limit ∉ r.blanks) :
      Unread r e
        ⟨"", (Refusal.config .negativeLimit).line, .ok 2⟩
  | blankLimit
      {e : LoadError}
      (hLimit : r.command.hasNegativeLimit = true)
      (hBlank : .limit ∈ r.blanks) :
      Unread r e ⟨"", "", .error (.blank .limit)⟩

/- A negative limit is noticed first. -/
theorem unread_of_hasNegativeLimit
    {r : Request}
    (hLimit : r.command.hasNegativeLimit = true)
    (e : LoadError) :
    ∃ s, r.work (.error e) = .stopped s ∧
      Unread r e (.ofStop "" s) := by
  rw [work_of_hasNegativeLimit hLimit]
  by_cases hBlank : .limit ∈ r.blanks
  · rw [if_pos hBlank]
    exact ⟨_, rfl, .blankLimit hLimit hBlank⟩
  · rw [if_neg hBlank]
    exact ⟨_, rfl, .negativeLimit hLimit hBlank⟩

/- Otherwise the cause of the reading decides. -/
theorem unread_of_load
    {r : Request}
    {path : String}
    {content : Except Files.AccessError ByteArray}
    {e : LoadError}
    (hLimit : r.command.hasNegativeLimit = false)
    (hLoads : LSystem.Loads path content (.error e)) :
    ∃ s, r.work (.error e) = .stopped s ∧
      Unread r e (.ofStop "" s) := by
  have hWork :
      r.command.work (.error e) =
        .stopped (.ofLoadError e) := by
    unfold work
    simp [hLimit]
  rw [Request.work, hWork]
  cases hLoads with
  | malformed hFile hParse => exact ⟨_, rfl, .told hLimit⟩
  | unreadable f place => exact ⟨_, rfl, .told hLimit⟩
  | notText hBytes =>
      exact ⟨_, rfl, .broken hLimit (.inl rfl)⟩
  | zeroInPath =>
      exact ⟨_, rfl, .broken hLimit (.inr rfl)⟩

/-
  A file is read to an L-system, or is rejected by a parse
  error: by the one for its path when it cannot be accessed,
  and by that of its text when this is no grammar.  There are
  two more causes, bytes that are no text and a zero in the
  path.

  Every command on a grammar that is not read leaves all files
  as they are and prints nothing.  It ends with exit code two
  and the line of the parse error, but breaks down of the two
  other causes, unless its limit is negative or blank, which
  is noticed before.
-/
theorem unread_grammar_answered
    (path : String)
    (content : Except Files.AccessError ByteArray) :
    LSystem.Loads path content (LSystem.ofFile path content) ∧
      ∀ t words r e,
        t.read path = content →
        ofWords words = .ok r →
        r.command.subject.grammar = path →
        LSystem.ofFile path content = .error e →
        ∃ report,
          answer Files.Tree.disk words t = (.ok report, t) ∧
            Unread r e report := by
  have hLoads := LSystem.loads_ofFile path content
  refine ⟨hLoads, ?_⟩
  intro t words r e hContent hRequest hPath hError
  have hRead :
      LSystem.ofFile r.command.subject.grammar
        (t.read r.command.subject.grammar) = .error e := by
    rw [hPath, hContent, hError]
  rw [hError] at hLoads
  have hStopped :
      ∃ s, r.work (.error e) = .stopped s ∧
        Unread r e (.ofStop "" s) := by
    by_cases hLimit : r.command.hasNegativeLimit = true
    · exact unread_of_hasNegativeLimit hLimit e
    · exact unread_of_load (by simpa using hLimit) hLoads
  rcases hStopped with ⟨s, hWork, hUnread⟩
  exact ⟨_, answer_of_stopped hRequest hRead hWork, hUnread⟩

/- A grammar without rules is told to be one. -/
theorem unread_grammar_answered_headless :
    let t : Files.Tree :=
      ⟨[], [(["g"], .file "render:\n".toUTF8)]⟩
    let r : Request := ⟨.validate ⟨"g", "F", .depth 6⟩, []⟩
    ofWords ["validate", "g"] = .ok r ∧
      LSystem.ofFile "g" (t.read "g") =
        .error (.failure (.parse (.expectedText "rules"))) ∧
      answer Files.Tree.disk ["validate", "g"] t =
        (.ok ⟨"", "Grammar error: expected 'rules'\n", .ok 2⟩,
          t) := by
  intro t r
  have hRequest : ofWords ["validate", "g"] = .ok r := by
    decide +kernel
  have hRead : t.read "g" = .ok "render:\n".toUTF8 := by
    decide +kernel
  have hParse :
      LSystem.parse "render:\n".toList =
        .error (.parse (.expectedText "rules")) := by
    with_unfolding_all rfl
  have hUnread :
      LSystem.ofFile "g" (t.read "g") =
        .error (.failure (.parse (.expectedText "rules"))) := by
    rw [hRead, LSystem.ofFile_toUTF8, hParse]
    rfl
  rcases (unread_grammar_answered "g" (t.read "g")).2 t
      ["validate", "g"] r _ rfl hRequest rfl hUnread with
    ⟨report, hAnswer, hReport⟩
  have hLine :
      (Refusal.grammar (.expectedText "rules")).line =
        "Grammar error: expected 'rules'\n" := by
    decide +kernel
  refine ⟨hRequest, hUnread, ?_⟩
  cases hReport with
  | told hLimit => exact hLine ▸ hAnswer
  | broken hLimit hError =>
      rcases hError with hError | hError <;> cases hError
  | negativeLimit hLimit hNumber => cases hLimit
  | blankLimit hLimit hBlank => cases hLimit

/-
  A byte that begins no character.  It is no parse error, and
  none of the three commands tells it to the user.
-/
theorem notText_breaks_down :
    let t : Files.Tree := ⟨[], [(["g"], .file ⟨#[0xff]⟩)]⟩
    (LSystem.ofFile "g" (t.read "g")).map (fun _ => ()) =
        .error .notText ∧
      ∀ words ∈
        [["render", "g", "o.svg"], ["validate", "g"],
          ["expand", "g"]],
        (answer Files.Tree.disk words t).1.map
            (fun report => (report.result, report.complaint)) =
          .ok (.error (.load .notText), "") := by
  decide +kernel

end Command

end Lindenmayer
