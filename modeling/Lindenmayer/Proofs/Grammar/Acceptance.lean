import Lindenmayer.Proofs.Config.LastSetting
import Lindenmayer.Proofs.Grammar.FileValues
import Lindenmayer.Proofs.Grammar.Lines
import Lindenmayer.Proofs.RuleStore.LastRule

/-
  An L-system is parsed from exactly the texts of the file
  format, and is the one that their settings and rules
  describe.

  Key definitions include:
    * `LSystem.MadeOf`

  Correctness is proven by:
    * `LSystem.madeOf_iff`
    * `Grammar.run_grammar_iff`
    * `LSystem.exists_fileOf_of_parse`
    * `LSystem.parse_of_mem_fileOf`
    * `LSystem.exists_parse_iff`
    * `LSystem.parse_accepts_file`
-/

------------------------------------------------------------
-- Described L-Systems
------------------------------------------------------------

namespace Lindenmayer

open Text (isBlank runsOf StartsOutside)

namespace LSystem

/-
  What settings and rules describe: every key has the value
  of its last setting or the default, and every symbol the
  production of its last rule, in the order of first rules.
-/
structure MadeOf
    (l : LSystem)
    (settings : List Setting)
    (rules : List (Rule Char)) : Prop where
  number :
    ∀ k, l.config.number k =
      (settings.filterMap (Setting.number? k)).getLast?.getD
        (Config.number {} k)
  color :
    ∀ k, l.config.color k =
      (settings.filterMap (Setting.color? k)).getLast?.getD
        (Config.color {} k)
  symbols :
    l.rules.symbols = (rules.map Rule.symbol).eraseDups
  production? :
    ∀ a, l.rules.production? a =
      RuleStore.lastProduction? rules a

/- Exactly one L-system is made of settings and rules. -/
theorem madeOf_iff
    (l : LSystem)
    (settings : List Setting)
    (rules : List (Rule Char)) :
    l.MadeOf settings rules ↔
      l = ⟨.ofPairs rules, .ofSettings settings⟩ := by
  constructor
  · intro hMade
    have hRules : l.rules = .ofPairs rules := by
      apply RuleStore.ext_of_production?
      · rw [hMade.symbols, RuleStore.symbols_ofPairs]
      · intro a
        rw [hMade.production?, RuleStore.production?_ofPairs]
    have hConfig : l.config = .ofSettings settings := by
      apply Config.ext_of_keys
      · intro k
        rw [hMade.number, Config.number_ofSettings]
      · intro k
        rw [hMade.color, Config.color_ofSettings]
    rw [← hRules, ← hConfig]
  · intro hEq
    rw [hEq]
    exact
      ⟨Config.number_ofSettings settings,
        Config.color_ofSettings settings,
        RuleStore.symbols_ofPairs rules,
        RuleStore.production?_ofPairs rules⟩

end LSystem

------------------------------------------------------------
-- Runs of the Grammar
------------------------------------------------------------

namespace Grammar

/- The section of settings takes as many as there are. -/
theorem run_configSection_iff
    (text rest : List Char)
    (c : Config) :
    configSection.run text = .ok (c, rest) ↔
      ∃ settings,
        Parser.greedy (.oneOf settingLines) text =
          .ok (settings, rest) ∧
        c = .ofSettings settings := by
  rw [configSection, Parser.run_map_iff]
  simp only [settings, Parser.many,
    Parser.run_atLeast_iff _ settings_reads.consumes,
    Nat.zero_le, true_and, Except.ok.injEq, eq_comm]

/- The section of rules takes one or more of them. -/
theorem run_rulesSection_iff
    (text rest : List Char)
    (s : RuleStore Char) :
    rulesSection.run text = .ok (s, rest) ↔
      ∃ rules, rules ≠ [] ∧
        Parser.greedy rule text = .ok (rules, rest) ∧
        RuleStore.ofRules rules = .ok s := by
  rw [rulesSection, Parser.run_map_iff]
  have hStore :
      ∀ rules, storeOf rules = .ok s ↔
        RuleStore.ofRules rules = .ok s := by
    intro rules
    rw [storeOf]
    cases RuleStore.ofRules rules <;> simp
  simp only [Parser.run_atLeast_iff _ rule_reads.consumes,
    Nat.one_le_iff_ne_zero, ne_eq, List.length_eq_zero_iff,
    hStore, and_assoc]

/-
  A grammar is read when its headers and sections are read
  one after the other and only blanks are left.
-/
theorem run_grammar_iff
    (source rest : List Char)
    (l : LSystem) :
    grammar.run source = .ok (l, rest) ↔
      rest = [] ∧
      ∃ first second third last,
        (header "render").run source = .ok ((), first) ∧
        configSection.run first = .ok (l.config, second) ∧
        (header "rules").run second = .ok ((), third) ∧
        rulesSection.run third = .ok (l.rules, last) ∧
        last ∈ FileFormat.blanks := by
  rw [grammar, Parser.run_complete_iff, Row.run_sequence_iff]
  constructor
  · intro hRun
    rcases hRun with
      ⟨⟨⟨_, c, _, s, _, _⟩, hRow, hBuild⟩, hRest⟩
    simp only [Row.run_cons_iff, Row.run_nil_iff, id_eq]
      at hRow
    rcases hRow with
      ⟨first, hRender, second, hSettings, third, hHeader,
        last, hRules, _, hLast, rfl⟩
    cases hBuild
    rw [Parser.run_skipBlanks_iff] at hLast
    exact ⟨hRest, first, second, third, last, hRender,
      hSettings, hHeader, hRules,
      List.dropWhile_eq_nil_iff.mp hLast.symm⟩
  · intro hParts
    rcases hParts with
      ⟨hRest, first, second, third, last, hRender, hSettings,
        hHeader, hRules, hLast⟩
    refine ⟨⟨((), l.config, (), l.rules, (), ()), ?_, rfl⟩,
      hRest⟩
    simp only [Row.run_cons_iff, Row.run_nil_iff, id_eq]
    refine ⟨first, hRender, second, hSettings, third,
      hHeader, last, hRules, [], ?_, rfl⟩
    rw [Parser.run_skipBlanks_iff]
    exact (List.dropWhile_eq_nil_iff.mpr hLast).symm

end Grammar

namespace LSystem

theorem parse_eq_ok_iff
    (source : List Char)
    (l : LSystem) :
    parse source = .ok l ↔
      ∃ rest, Grammar.grammar.run source = .ok (l, rest) := by
  rw [parse]
  cases Grammar.grammar.run source with
  | error e => simp
  | ok r =>
      rcases r with ⟨l', rest⟩
      simp

theorem parse_eq_error_iff
    (source : List Char)
    (f : Failure) :
    parse source = .error f ↔
      Grammar.grammar.run source = .error f := by
  rw [parse]
  cases Grammar.grammar.run source with
  | error e => simp
  | ok r => simp

------------------------------------------------------------
-- Texts of the Format
------------------------------------------------------------

theorem startsOutside_render :
    StartsOutside isBlank "render".toList :=
  ⟨'r', rfl, rfl⟩

theorem startsOutside_rules :
    StartsOutside isBlank "rules".toList :=
  ⟨'r', rfl, rfl⟩

/-
  What is parsed is a file with the settings and rules that
  were read.  Each part passes the blanks behind it on to the
  next, and the last ones end the file.
-/
theorem exists_fileOf_of_parse
    {source : List Char}
    {l : LSystem}
    (hParse : parse source = .ok l) :
    ∃ settings rules,
      source ∈ FileFormat.fileOf settings rules ∧
        l.MadeOf settings rules := by
  rcases (parse_eq_ok_iff source l).mp hParse with
    ⟨rest, hRun⟩
  rcases (Grammar.run_grammar_iff source rest l).mp hRun with
    ⟨_, first, second, third, last, hRender, hSettings,
      hHeader, hRules, hLast⟩
  rcases (Grammar.run_configSection_iff _ _ _).mp hSettings
    with ⟨settings, hSettings, hConfig⟩
  rcases (Grammar.run_rulesSection_iff _ _ _).mp hRules with
    ⟨rules, hNotNil, hRules, hStore⟩
  rcases (Grammar.header_reads startsOutside_render).exists_of_run
      source () first hRender with
    ⟨opening, hOpening, g₁, hBlank₁, hSource⟩
  rcases Grammar.settings_reads.greedy_sound hSettings hBlank₁
    with ⟨settingLines, hLines, g₂, hBlank₂, hFirst⟩
  rcases (Grammar.header_reads startsOutside_rules).sound
      hHeader hBlank₂ with
    ⟨heading, hHeading, g₃, hBlank₃, hSecond⟩
  rcases Grammar.rule_reads.greedy_sound hRules hBlank₃ with
    ⟨ruleLines, hRuleLines, g₄, hBlank₄, hThird⟩
  refine ⟨settings, rules, ⟨hNotNil, ?_⟩, ?_⟩
  · rw [hSource, hFirst, hSecond, hThird]
    refine Text.append_mem_prod_cons hOpening
      (Text.append_mem_prod_cons hLines
        (Text.append_mem_prod_cons hHeading
          (Text.append_mem_prod_cons hRuleLines ?_)))
    rw [Text.mem_prod_singleton_iff]
    exact Text.append_mem_runsOf hBlank₄ hLast
  · rw [madeOf_iff, ← hConfig]
    rw [RuleStore.ofRules_eq_ok_iff] at hStore
    rw [← hStore.2]

theorem production_ne_nil_of_mem
    {rules : List (Rule Char)}
    {t : List Char}
    (hMember : t ∈ (rules.map FileFormat.ruleLineOf).prod) :
    ∀ r ∈ rules, r.production ≠ [] := by
  intro r hRule
  rcases Text.exists_mem_of_mem_prod_map hMember hRule with
    ⟨line, hLine⟩
  exact hLine.1

/-
  A file with settings and rules is parsed.  Each greedy
  section ends where the next part of the file begins.
-/
theorem parse_of_mem_fileOf
    {source : List Char}
    {settings : List Setting}
    {rules : List (Rule Char)}
    (hMember : source ∈ FileFormat.fileOf settings rules) :
    parse source =
      .ok ⟨.ofPairs rules, .ofSettings settings⟩ := by
  rcases hMember with ⟨hNotNil, hFile⟩
  rw [Text.mem_prod_cons_iff] at hFile
  rcases hFile with ⟨opening, hOpening, _, hFile, rfl⟩
  rw [Text.mem_prod_cons_iff] at hFile
  rcases hFile with ⟨settingLines, hLines, _, hFile, rfl⟩
  rw [Text.mem_prod_cons_iff] at hFile
  rcases hFile with ⟨heading, hHeading, _, hFile, rfl⟩
  rw [Text.mem_prod_cons_iff] at hFile
  rcases hFile with ⟨ruleLines, hRuleLines, b, hBlank, rfl⟩
  rw [Text.mem_prod_singleton_iff] at hBlank
  rcases (Grammar.header_reads startsOutside_render).run_of_mem
      () opening hOpening
      (settingLines ++ (heading ++ (ruleLines ++ b))) with
    ⟨first, hRender, hFirst⟩
  rcases Grammar.settings_reads.greedy_complete
      (Grammar.settings_fail_of_header hHeading
        (ruleLines ++ b))
      hLines hFirst with
    ⟨second, hSettings, hSecond⟩
  rcases (Grammar.header_reads startsOutside_rules).complete
      hHeading hSecond with
    ⟨third, hHeader, hThird⟩
  rcases Grammar.rule_reads.greedy_complete
      (Grammar.rule_fails_of_blanks hBlank) hRuleLines hThird
    with ⟨last, hRules, hLast⟩
  rw [List.dropWhile_eq_nil_iff.mpr hBlank] at hLast
  have hProductions := production_ne_nil_of_mem hRuleLines
  rw [parse_eq_ok_iff]
  refine ⟨[], (Grammar.run_grammar_iff _ _ _).mpr
    ⟨rfl, first, second, third, last, hRender, ?_,
      hHeader, ?_, List.dropWhile_eq_nil_iff.mp hLast⟩⟩
  · rw [Grammar.run_configSection_iff]
    exact ⟨settings, hSettings, rfl⟩
  · rw [Grammar.run_rulesSection_iff]
    refine ⟨rules, hNotNil, hRules, ?_⟩
    rw [RuleStore.ofRules_eq_ok_iff]
    exact ⟨hProductions, rfl⟩

/- A text is parsed exactly when it is of the format. -/
theorem exists_parse_iff
    (source : List Char) :
    (∃ l, parse source = .ok l) ↔
      source ∈ FileFormat.file := by
  rw [FileFormat.mem_file_iff_exists_fileOf]
  constructor
  · intro hParsed
    rcases hParsed with ⟨l, hParse⟩
    rcases exists_fileOf_of_parse hParse with
      ⟨settings, rules, hMember, _⟩
    exact ⟨settings, rules, hMember⟩
  · intro hFile
    rcases hFile with ⟨settings, rules, hMember⟩
    exact ⟨_, parse_of_mem_fileOf hMember⟩

/-
  A text is parsed exactly when it is a file of the format,
  and then to the L-system that is made of its settings and
  rules.
-/
theorem parse_accepts_file
    (source : List Char) :
    ((∃ l, parse source = .ok l) ↔
      source ∈ FileFormat.file) ∧
    ∀ l, parse source = .ok l ↔
      ∃ settings rules,
        source ∈ FileFormat.fileOf settings rules ∧
          l.MadeOf settings rules := by
  refine ⟨exists_parse_iff source, ?_⟩
  intro l
  constructor
  · exact exists_fileOf_of_parse
  · intro hFile
    rcases hFile with ⟨settings, rules, hMember, hMade⟩
    rw [(madeOf_iff l settings rules).mp hMade]
    exact parse_of_mem_fileOf hMember

end LSystem

end Lindenmayer
