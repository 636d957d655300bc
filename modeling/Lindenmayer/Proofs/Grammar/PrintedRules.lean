import Lindenmayer.Proofs.Grammar.PlainFile
import Lindenmayer.Proofs.RuleStore.Construction
import Lindenmayer.Proofs.RuleStore.Propagating

/-
  Printed rules are read back.

  The line of a rule is read exactly, whatever follows it,
  and whatever its symbols are.  So the lines of all rules
  are read one after the other and nothing is left of them.
  The rules of a grammar can all be printed in this way, and
  make its store again.

  Key definitions include:
    * `FileFormat.spread`
    * `FileFormat.printedRule`

  Correctness is proven by:
    * `Grammar.run_production_spread`
    * `Grammar.run_rule_printedRule`
    * `Grammar.run_rulesSection_printed`
    * `LSystem.isWritable_of_parse`
    * `LSystem.ofRules_rules`
-/

------------------------------------------------------------
-- Printed Rules
------------------------------------------------------------

namespace Lindenmayer

open Row (skipGap)

namespace FileFormat

/- A word with a space before each of its symbols. -/
def spread
    (word : List Char) : List Char :=
  word.flatMap fun c => [' ', c]

/-
  The line of a rule as an account has it: two spaces, the
  symbol, the arrow between spaces, and the production.
-/
def printedRule
    (r : Rule Char) : List Char :=
  ' ' :: ' ' :: r.symbol :: ' ' :: '=' :: '>' ::
    (spread r.production ++ ['\n'])

end FileFormat

open FileFormat (isWritable isWritable_iff printedRule
  ruleLineOf spread symbolOf symbolsOf)

namespace Grammar

/- In front of a symbol only the gap is skipped. -/
theorem skipGap_symbol
    {c : Char}
    (hSymbol : isSymbol c = true)
    (tail : List Char) :
    skipGap (c :: tail) = c :: tail :=
  List.dropWhile_cons_of_neg
    (by simp [isGap_of_not_isBlank
      (isBlank_of_isSymbol c hSymbol)])

theorem skipGap_space
    (tail : List Char) :
    skipGap (' ' :: tail) = skipGap tail :=
  List.dropWhile_cons_of_pos rfl

------------------------------------------------------------
-- Reading Productions
------------------------------------------------------------

/-
  The symbols of a word are read up to the line end, each
  with the space that stands before the next one.
-/
theorem greedy_symbol_spread
    {word : List Char}
    (hSymbols : word.all isSymbol = true)
    (tail : List Char) :
    Parser.greedy symbol
        (skipGap (spread word ++ '\n' :: tail)) =
      .ok (word, '\n' :: tail) := by
  induction word with
  | nil =>
      rw [Parser.greedy_nil_iff]
      exact ⟨rfl, run_symbol_of_not_symbol _ (by
        intro c hHead
        cases hHead
        rfl)⟩
  | cons c word ih =>
      rw [List.all_cons, Bool.and_eq_true] at hSymbols
      rcases hSymbols with ⟨hFirst, hLater⟩
      have hText :
          skipGap (spread (c :: word) ++ '\n' :: tail) =
            c :: (spread word ++ '\n' :: tail) :=
        (skipGap_space _).trans (skipGap_symbol hFirst _)
      rw [hText, Parser.greedy_cons_iff]
      have hRun :
          symbol.run (c :: (spread word ++ '\n' :: tail)) =
            .ok (c, skipGap (spread word ++ '\n' :: tail)) := by
        rw [run_symbol_iff]
        exact ⟨hFirst, _, skipGap_symbol hFirst _, rfl⟩
      exact ⟨_, hRun, symbol_reads.consumes _ _ _ hRun,
        ih hLater⟩

theorem run_production_spread
    {word : List Char}
    (hSymbols : word.all isSymbol = true)
    (hNotNil : word ≠ [])
    (tail : List Char) :
    (symbol.atLeast 1).run
        (skipGap (spread word ++ '\n' :: tail)) =
      .ok (word, '\n' :: tail) := by
  rw [Parser.run_atLeast_iff symbol symbol_reads.consumes]
  exact ⟨List.length_pos_iff.mpr hNotNil,
    greedy_symbol_spread hSymbols tail⟩

------------------------------------------------------------
-- Reading Lines
------------------------------------------------------------

/-
  A printed rule is read whatever follows it; only the gap in
  front of the next line is taken along.
-/
theorem run_rule_printedRule
    {r : Rule Char}
    (hWritable : isWritable r = true)
    (tail : List Char) :
    rule.run (printedRule r ++ tail) =
      .ok (r, skipGap tail) := by
  rcases (isWritable_iff r).mp hWritable with
    ⟨hNotNil, hSymbol, hSymbols⟩
  have hLine :
      printedRule r ++ tail =
        ' ' :: ' ' :: r.symbol :: ' ' :: '=' :: '>' ::
          (spread r.production ++ '\n' :: tail) := by
    simp [printedRule]
  have hTrimmed :
      Text.trimLeft (printedRule r ++ tail) =
        r.symbol :: ' ' :: '=' :: '>' ::
          (spread r.production ++ '\n' :: tail) := by
    have hVisible := isBlank_of_isSymbol r.symbol hSymbol
    rw [hLine, Text.trimLeft,
      List.dropWhile_cons_of_pos (by decide),
      List.dropWhile_cons_of_pos (by decide),
      List.dropWhile_cons_of_neg (by simp [hVisible])]
  rw [rule_eq_afterBlanks, Row.run_afterBlanks_iff, hTrimmed]
  refine ⟨(r.symbol, "=>", r.production, "\n", ()), tail, ?_,
    rfl, rfl⟩
  simp only [Row.run_cons_iff, Row.run_nil_iff]
  have hFirst :
      symbol.run
          (skipGap
            (r.symbol :: ' ' :: '=' :: '>' ::
              (spread r.production ++ '\n' :: tail))) =
        .ok
          (r.symbol,
            '=' :: '>' ::
              (spread r.production ++ '\n' :: tail)) := by
    rw [skipGap_symbol hSymbol, run_symbol_iff]
    exact ⟨hSymbol, _, skipGap_symbol hSymbol _, rfl⟩
  have hArrow :
      (Parser.literal "=>").run
          (skipGap
            ('=' :: '>' ::
              (spread r.production ++ '\n' :: tail))) =
        .ok ("=>", spread r.production ++ '\n' :: tail) := by
    rw [Parser.run_literal_iff]
    exact ⟨rfl, rfl⟩
  exact ⟨_, hFirst, _, hArrow, _,
    run_production_spread hSymbols hNotNil tail, tail, rfl,
    rfl⟩

/-
  Printed rules are read one after the other.  The induction
  carries the gap that was taken along with the line before.
-/
theorem greedy_rule_printed
    {rules : List (Rule Char)}
    (hWritable : rules.all isWritable = true) :
    Parser.greedy rule (skipGap (rules.flatMap printedRule)) =
      .ok (rules, []) := by
  induction rules with
  | nil =>
      rw [Parser.greedy_nil_iff]
      exact ⟨rfl, rule_fails_of_blanks
        (FileFormat.nil_mem_runsOf Text.isBlank)⟩
  | cons r rules ih =>
      rw [List.all_cons, Bool.and_eq_true] at hWritable
      have hRun :
          rule.run
              (skipGap ((r :: rules).flatMap printedRule)) =
            .ok (r, skipGap (rules.flatMap printedRule)) := by
        rw [← rule_reads.run_dropWhile, ← Text.trimLeft,
          Row.trimLeft_skipGap, Text.trimLeft,
          rule_reads.run_dropWhile]
        exact run_rule_printedRule hWritable.1 _
      rw [Parser.greedy_cons_iff]
      exact ⟨_, hRun, rule_reads.consumes _ _ _ hRun,
        ih hWritable.2⟩

/- Printed rules are consumed completely, and make a store. -/
theorem run_rulesSection_printed
    {rules : List (Rule Char)}
    (hWritable : rules.all isWritable = true)
    (hNotNil : rules ≠ [])
    {s : RuleStore Char}
    (hStore : RuleStore.ofRules rules = .ok s) :
    rulesSection.run (rules.flatMap printedRule) =
      .ok (s, []) := by
  rw [run_rulesSection_iff]
  refine ⟨rules, hNotNil, ?_, hStore⟩
  cases rules with
  | nil => exact absurd rfl hNotNil
  | cons r rules =>
      rw [List.all_cons, Bool.and_eq_true] at hWritable
      have hRun :
          rule.run ((r :: rules).flatMap printedRule) =
            .ok (r, skipGap (rules.flatMap printedRule)) :=
        run_rule_printedRule hWritable.1 _
      rw [Parser.greedy_cons_iff]
      exact ⟨_, hRun, rule_reads.consumes _ _ _ hRun,
        greedy_rule_printed hWritable.2⟩

end Grammar

------------------------------------------------------------
-- Rules of Grammars
------------------------------------------------------------

/- What stands in the line of a rule is visible ASCII. -/
theorem FileFormat.isWritable_of_mem
    {r : Rule Char}
    {t : List Char}
    (hMember : t ∈ ruleLineOf r) :
    isWritable r = true := by
  rcases hMember with ⟨hNotNil, hLine⟩
  rcases Text.exists_mem_of_mem_prod hLine
      (l := symbolOf r.symbol) (by simp) with
    ⟨_, hLow, hHigh, _⟩
  rcases Text.exists_mem_of_mem_prod hLine
      (l := symbolsOf r.production) (by simp) with
    ⟨_, hProduction⟩
  rw [isWritable_iff, List.all_eq_true]
  refine ⟨hNotNil, (Grammar.isSymbol_iff _).mpr ⟨hLow, hHigh⟩,
    ?_⟩
  intro c hSymbol
  rcases Text.exists_mem_of_mem_prod_map hProduction hSymbol
    with ⟨_, hText⟩
  rcases Language.mem_mul.mp hText with
    ⟨_, _, _, ⟨hLow', hHigh', _⟩, _⟩
  exact (Grammar.isSymbol_iff c).mpr ⟨hLow', hHigh'⟩

/-
  A grammar has a rule, and all its rules can be written: each
  of them was read from a line.
-/
theorem LSystem.isWritable_of_parse
    {source : List Char}
    {l : LSystem}
    (hParse : parse source = .ok l) :
    l.rules.rules ≠ [] ∧
      l.rules.rules.all isWritable = true := by
  rcases exists_fileOf_of_parse hParse with
    ⟨settings, rules, ⟨hNotNil, hFile⟩, hMade⟩
  rw [madeOf_iff] at hMade
  rw [hMade]
  constructor
  · rcases List.exists_mem_of_ne_nil rules hNotNil with
      ⟨r, hRule⟩
    have hSymbol :
        r.symbol ∈ (RuleStore.ofPairs rules).symbols := by
      rw [RuleStore.symbols_ofPairs, List.mem_eraseDups]
      exact List.mem_map_of_mem hRule
    intro hNone
    rw [RuleStore.symbols, hNone] at hSymbol
    cases hSymbol
  · rw [List.all_eq_true]
    intro r hMember
    rcases Text.exists_mem_of_mem_prod hFile
        (l := (rules.map ruleLineOf).prod) (by simp) with
      ⟨_, hLines⟩
    rcases Text.exists_mem_of_mem_prod_map hLines
        (RuleStore.mem_of_mem_ofPairs hMember) with
      ⟨line, hLine⟩
    exact FileFormat.isWritable_of_mem hLine

/- The rules of a grammar make its store once more. -/
theorem LSystem.ofRules_rules
    {l : LSystem}
    (hWritable : l.rules.rules.all isWritable = true) :
    RuleStore.ofRules l.rules.rules = .ok l.rules := by
  rw [RuleStore.ofRules_eq_ok_iff]
  refine ⟨?_, (RuleStore.ofPairs_rules _).symm⟩
  intro r hMember
  have hRule := List.all_eq_true.mp hWritable r hMember
  exact ((isWritable_iff r).mp hRule).1

end Lindenmayer
