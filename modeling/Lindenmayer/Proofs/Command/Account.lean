import Lindenmayer.Proofs.Command.Outcome
import Lindenmayer.Proofs.Grammar.PrintedRules

/-
  The rules in the account of a grammar can be read back.

  The lines of an account that list the rules are printed
  rules.  They are printed before anything can go wrong, and
  what was printed is reported however the command ends.

  Correctness is proven by:
    * `Command.toList_ruleLine`
    * `Command.output_finish`
    * `Command.exists_output_of_validate`
    * `Command.printed_rules_read_back`
-/

------------------------------------------------------------
-- Lines of Rules
------------------------------------------------------------

namespace Lindenmayer

open FileFormat (isWritable printedRule spread)

namespace Command

/-
  A word with spaces between its symbols, and one in front,
  has a space before each of them.
-/
theorem space_intercalate
    {word : List Char}
    (hNotNil : word ≠ []) :
    ' ' :: [' '].intercalate
        (word.map (String.toList ∘ Char.toString)) =
      spread word := by
  induction word with
  | nil => exact absurd rfl hNotNil
  | cons c word ih =>
      cases word with
      | nil => simp [spread]
      | cons d word =>
          have hRest := ih (List.cons_ne_nil d word)
          rw [List.map_cons, List.map_cons,
            List.intercalate_cons_cons, ← List.map_cons]
          simp only [spread, List.flatMap_cons] at hRest ⊢
          rw [← hRest]
          simp

/- The line of a rule in an account is a printed rule. -/
theorem toList_ruleLine
    {r : Rule Char}
    (hWritable : isWritable r = true) :
    (ruleLine r).toList = printedRule r := by
  have hNotNil := ((FileFormat.isWritable_iff r).mp hWritable).1
  rw [printedRule, ← space_intercalate hNotNil]
  simp [ruleLine, String.toList_intercalate]

theorem toList_ruleLines
    {rules : List (Rule Char)}
    (hWritable : rules.all isWritable = true) :
    (String.join (rules.map ruleLine)).toList =
      rules.flatMap printedRule := by
  rw [String.toList_join, List.flatMap_map]
  apply List.flatMap_congr
  intro r hMember
  exact toList_ruleLine (List.all_eq_true.mp hWritable r hMember)

------------------------------------------------------------
-- Printing
------------------------------------------------------------

/- The account is printed whether the unfolding stops or not. -/
theorem exists_printed
    (s : Subject)
    (l : LSystem) :
    ∃ rest, (validateWork s l).printed = account l ++ rest := by
  rw [validateWork]
  cases sampleText s l with
  | ok text => exact ⟨text, rfl⟩
  | error e => exact ⟨"", String.append_empty.symm⟩

@[simp] theorem output_ofStop
    (printed : String)
    (s : Stop) :
    (Report.ofStop printed s).output = printed := by
  cases s <;> rfl

/- What a work prints is reported however it ends. -/
theorem output_finish
    (w : Work)
    (t : Files.Tree) :
    (finish Files.Tree.disk w t).1.output = w.printed := by
  rcases w with ⟨printed, ending⟩
  cases ending with
  | done => rfl
  | stopped s => exact output_ofStop printed s
  | writing path content =>
      rw [finish_writing]
      rcases t.write path content with ⟨e | _, u⟩
      · exact output_ofStop printed (.ofAccessError e)
      · rfl

/- A command that validates a grammar prints its account. -/
theorem exists_output_of_validate
    {words : List String}
    {r : Request}
    {s : Subject}
    {l : LSystem}
    (t : Files.Tree)
    (hRequest : ofWords words = .ok r)
    (hCommand : r.command = .validate s)
    (hGrammar :
      LSystem.ofFile s.grammar (t.read s.grammar) = .ok l) :
    ∃ report rest,
      (answer Files.Tree.disk words t).1 = .ok report ∧
      report.output = account l ++ rest := by
  have hRead :
      LSystem.ofFile r.command.subject.grammar
        (t.read r.command.subject.grammar) = .ok l := by
    rw [hCommand]
    exact hGrammar
  have hPrinted :
      (r.work (.ok l)).printed =
        (validateWork s l).printed := by
    rw [Request.work, hCommand]
    rfl
  rcases exists_printed s l with ⟨rest, hAccount⟩
  rw [answer_eq_finish hRequest hRead]
  refine ⟨_, rest, rfl, ?_⟩
  rw [output_finish, hPrinted, hAccount]

------------------------------------------------------------
-- Accounts
------------------------------------------------------------

/- An account starts with the number of rules and their lines. -/
theorem exists_account
    (l : LSystem) :
    ∃ rest,
      account l =
        "rules: " ++ toString l.rules.size ++ "\n" ++
          String.join (l.rules.rules.map ruleLine) ++ rest := by
  let c := l.config
  refine ⟨"step: " ++ scaled c.step c.stepFactor ++
    "angle: " ++ scaled c.angle c.angleFactor ++
    "line width: " ++ scaled c.lineWidth c.lineWidthFactor ++
    "colors: pen=" ++ c.pen ++
    " background=" ++ c.background ++ "\n", ?_⟩
  simp only [← String.append_assoc]
  rfl

/-
  For every text that is parsed, the account on it has the
  lines of all its rules in order, and these lines are read to
  their end as the same rules in the same order.
-/
theorem printed_rules_read_back
    (source : String)
    (l : LSystem)
    (hParse : LSystem.parse source.toList = .ok l) :
    let lines := String.join (l.rules.rules.map ruleLine)
    Grammar.rulesSection.run lines.toList = .ok (l.rules, []) ∧
      ∀ (t : Files.Tree) (words : List String) (r : Request)
        (s : Subject),
        ofWords words = .ok r →
        r.command = .validate s →
        t.read s.grammar = .ok source.toUTF8 →
        ∃ report rest,
          (answer Files.Tree.disk words t).1 = .ok report ∧
          report.output =
            "rules: " ++ toString l.rules.size ++ "\n" ++
              lines ++ rest := by
  intro lines
  rcases LSystem.isWritable_of_parse hParse with
    ⟨hNotNil, hWritable⟩
  constructor
  · rw [toList_ruleLines hWritable]
    exact Grammar.run_rulesSection_printed hWritable hNotNil
      (LSystem.ofRules_rules hWritable)
  · intro t words r s hRequest hCommand hFile
    have hGrammar :
        LSystem.ofFile s.grammar (t.read s.grammar) = .ok l := by
      rw [hFile, LSystem.ofFile_toUTF8, hParse]
      rfl
    rcases exists_output_of_validate t hRequest hCommand hGrammar
      with ⟨report, rest, hAnswer, hOutput⟩
    rcases exists_account l with ⟨rest', hAccount⟩
    refine ⟨report, rest' ++ rest, hAnswer, ?_⟩
    rw [hOutput, hAccount, String.append_assoc]

/- Rules for a sign of the arrow, and for a colon. -/
theorem printed_rules_read_back_arrows :
    let rules : List (Rule Char) :=
      [⟨'=', ['>', '=']⟩, ⟨':', ['=', '>']⟩]
    let source := String.ofList (FileFormat.plain [] rules)
    let t : Files.Tree := ⟨[], [(["g"], .file source.toUTF8)]⟩
    let s : Subject := ⟨"g", "F", .iterations 2⟩
    let words := ["validate", "g", "--iterations", "2"]
    LSystem.parse source.toList = .ok ⟨.ofPairs rules, {}⟩ ∧
      ofWords words = .ok ⟨.validate s, []⟩ ∧
      Grammar.rulesSection.run
          "  = => > =\n  : => = >\n".toList =
        .ok (.ofPairs rules, []) ∧
      ∃ report rest,
        (answer Files.Tree.disk words t).1 = .ok report ∧
        report.output =
          "rules: 2\n" ++ "  = => > =\n  : => = >\n" ++ rest := by
  intro rules source t s words
  have hParse :
      LSystem.parse source.toList = .ok ⟨.ofPairs rules, {}⟩ := by
    rw [String.toList_ofList]
    exact LSystem.parse_of_mem_fileOf
      (FileFormat.plain_mem_fileOf [] rules rfl (by decide)
        (List.cons_ne_nil _ _))
  have hRequest : ofWords words = .ok ⟨.validate s, []⟩ := by
    decide +kernel
  have hFile :
      ∀ b, Files.Tree.read ⟨[], [(["g"], .file b)]⟩ "g" = .ok b :=
    fun _ => rfl
  have hLines :
      String.join ((RuleStore.ofPairs rules).rules.map ruleLine) =
        "  = => > =\n  : => = >\n" := by
    decide +kernel
  have hHead :
      "rules: " ++ toString (RuleStore.ofPairs rules).size ++
          "\n" =
        "rules: 2\n" := by
    decide +kernel
  have hBack := printed_rules_read_back source _ hParse
  rw [hLines, hHead] at hBack
  exact ⟨hParse, hRequest, hBack.1,
    hBack.2 t words _ s hRequest rfl (hFile _)⟩

end Command

end Lindenmayer
