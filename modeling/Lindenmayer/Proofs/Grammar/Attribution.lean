import Lindenmayer.Proofs.Grammar.FileValues
import Lindenmayer.Proofs.Grammar.Failures

/-
  Which parse error a text is rejected by.

  The parts of the format are looked for one after the other,
  and the first one that is missing gives the error.  Lines
  of settings are never missing: they are read as long as
  there are any, and what stops them is dropped.

  Key definitions include:
    * `FileFormat.AfterSettings`
    * `FileFormat.AfterHeaders`
    * `Grammar.Blames`

  Correctness is proven by:
    * `Grammar.exists_afterSettings`
    * `LSystem.cases_of_error`
    * `LSystem.cases_of_afterSettings`
    * `LSystem.cases_of_afterHeaders`
    * `LSystem.parse_error_blames`
-/

------------------------------------------------------------
-- What Follows the Parts
------------------------------------------------------------

namespace Lindenmayer

open Text (isBlank BeginsWith)

namespace FileFormat

open scoped Computability

/-
  What follows the header of the first section and as many
  lines of settings as there are behind it.
-/
def AfterSettings
    (source rest : List Char) : Prop :=
  ∃ opening ∈ header "render", ∃ lines ∈ settingLine∗,
    source = opening ++ (lines ++ rest) ∧
      ¬ BeginsWith settingLine rest

/- What follows the header of the second section as well. -/
def AfterHeaders
    (source rest : List Char) : Prop :=
  ∃ heading ∈ header "rules",
    AfterSettings source (heading ++ rest)

end FileFormat

namespace Grammar

open FileFormat (AfterSettings AfterHeaders)

/-
  A parse error blames a text for the first part that it
  lacks.  What follows the settings is the same in every such
  split of a text, but for blanks in front.
-/
structure Blames
    (source : List Char)
    (e : ParseError) : Prop where
  opening :
    ¬ BeginsWith (FileFormat.header "render") source →
      e ∈ headerErrors "render"
  settings :
    BeginsWith (FileFormat.header "render") source →
      ∃ rest, AfterSettings source rest
  heading :
    ∀ rest, AfterSettings source rest →
      ¬ BeginsWith (FileFormat.header "rules") rest →
      e ∈ headerErrors "rules"
  word :
    ∀ rest, AfterSettings source rest →
      ¬ "rules".toList <+: Text.trimLeft rest →
      e = .expectedText "rules"
  firstRule :
    ∀ rest, AfterHeaders source rest →
      ¬ BeginsWith FileFormat.ruleLine rest →
      e ∈ ruleErrors
  ending :
    ∀ rest, AfterHeaders source rest →
      BeginsWith FileFormat.ruleLine rest →
      e = .expectedEnd

------------------------------------------------------------
-- Parts That Are Read
------------------------------------------------------------

/- A header is read where one stands. -/
theorem exists_run_header_iff
    {name : String}
    (hStart : Text.StartsOutside isBlank name.toList)
    (text : List Char) :
    (∃ r, (header name).run text = .ok r) ↔
      BeginsWith (FileFormat.header name) text := by
  rw [(header_reads hStart).exists_run_iff, iSup_const]

/- A setting is read where a line of one stands. -/
theorem exists_run_settings_iff
    (text : List Char) :
    (∃ r, (Parser.oneOf settingLines).run text = .ok r) ↔
      BeginsWith FileFormat.settingLine text := by
  rw [settings_reads.exists_run_iff,
    FileFormat.settingLine_eq_iSup]

/- A rule is read where a line of one stands. -/
theorem exists_run_rule_iff
    (text : List Char) :
    (∃ r, rule.run text = .ok r) ↔
      BeginsWith FileFormat.ruleLine text := by
  rw [rule_reads.exists_run_iff, FileFormat.ruleLine_eq_iSup]

/- After the first header come settings, if there are any. -/
theorem exists_afterSettings
    {source : List Char}
    (hBegins :
      BeginsWith (FileFormat.header "render") source) :
    ∃ rest, AfterSettings source rest := by
  rcases (exists_run_header_iff LSystem.startsOutside_render
      source).mpr hBegins with ⟨⟨_, first⟩, hRender⟩
  rcases configSection_failsBy.succeeds first with
    ⟨⟨c, second⟩, hConfig⟩
  rcases (run_configSection_iff first second c).mp hConfig
    with ⟨settings, hSettings, _⟩
  rcases (header_reads LSystem.startsOutside_render).exists_of_run
      source () first hRender with
    ⟨opening, hOpening, g, hBlank, hSource⟩
  rcases settings_reads.greedy_sound hSettings hBlank with
    ⟨lines, hLines, g', hBlank', hFirst⟩
  refine ⟨g' ++ second, opening, hOpening, lines, ?_, ?_, ?_⟩
  · rw [FileFormat.settingLine_eq_iSup, Text.kstar_iSup]
    exact Language.mem_iSup.mpr ⟨settings, hLines⟩
  · rw [hSource, hFirst]
  · rw [← exists_run_settings_iff]
    rintro ⟨r, hRun⟩
    rw [settings_reads.run_congr
      (List.dropWhile_append_of_pos hBlank')] at hRun
    rcases Parser.greedy_stops hSettings with ⟨e, hFails⟩
    rw [hFails] at hRun
    cases hRun

/- The settings are read up to what follows them. -/
theorem run_of_afterSettings
    {source rest : List Char}
    (hAfter : AfterSettings source rest) :
    ∃ first c second,
      (header "render").run source = .ok ((), first) ∧
      configSection.run first = .ok (c, second) ∧
      second.dropWhile isBlank = rest.dropWhile isBlank := by
  rcases hAfter with
    ⟨opening, hOpening, lines, hLines, rfl, hNone⟩
  rw [FileFormat.settingLine_eq_iSup, Text.kstar_iSup,
    Language.mem_iSup] at hLines
  rcases hLines with ⟨settings, hLines⟩
  have hStops :
      ∃ e, (Parser.oneOf settingLines).run rest =
        .error (.parse e) := by
    cases hRun : (Parser.oneOf settingLines).run rest with
    | ok r =>
        exact absurd
          ((exists_run_settings_iff rest).mp ⟨r, hRun⟩) hNone
    | error f =>
        rcases settings_failsBy rest f hRun with ⟨e, _, rfl⟩
        exact ⟨e, rfl⟩
  rcases (header_reads LSystem.startsOutside_render).run_of_mem
      () opening hOpening (lines ++ rest) with
    ⟨first, hRender, hFirst⟩
  rcases settings_reads.greedy_complete hStops hLines hFirst
    with ⟨second, hSettings, hSecond⟩
  exact ⟨first, _, second, hRender,
    (run_configSection_iff _ _ _).mpr ⟨settings, hSettings, rfl⟩,
    hSecond⟩

end Grammar

------------------------------------------------------------
-- Parts That Fail
------------------------------------------------------------

namespace LSystem

open Grammar
open FileFormat (AfterSettings AfterHeaders)

/-
  The parts of a rejected text up to the one that fails.  No
  settings and no blanks at the end are among those.
-/
theorem cases_of_error
    {source : List Char}
    {f : Failure}
    (hReject : parse source = .error f) :
    (header "render").run source = .error f ∨
      ∃ first c second,
        (header "render").run source = .ok ((), first) ∧
        configSection.run first = .ok (c, second) ∧
        ((header "rules").run second = .error f ∨
          ∃ third,
            (header "rules").run second = .ok ((), third) ∧
            (rulesSection.run third = .error f ∨
              (∃ r, rulesSection.run third = .ok r) ∧
                f = .parse .expectedEnd)) := by
  rw [parse_eq_error_iff] at hReject
  rcases Parser.run_complete_error hReject with
    hError | ⟨⟨⟨l, rest⟩, hOk⟩, hEnd⟩
  · have hRow := Row.run_sequence_error hError
    simp only [Row.run_cons_error_iff, id_eq] at hRow
    rcases hRow with hRender | ⟨_, first, hRender, hRow⟩
    · exact .inl hRender
    · refine .inr ?_
      rcases hRow with hConfig | ⟨c, second, hConfig, hRow⟩
      · rcases configSection_failsBy first f hConfig with
          ⟨e, hNone, _⟩
        exact absurd hNone List.not_mem_nil
      · refine ⟨first, c, second, hRender, hConfig, ?_⟩
        rcases hRow with hHeader | ⟨_, third, hHeader, hRow⟩
        · exact .inl hHeader
        · refine .inr ⟨third, hHeader, ?_⟩
          rcases hRow with hRules | ⟨s, last, hRules, hRow⟩
          · exact .inl hRules
          · rcases hRow with hBlanks | ⟨_, _, _, hNil⟩
            · cases hBlanks
            · cases hNil
  · rw [Row.run_sequence_iff] at hOk
    rcases hOk with ⟨⟨_, c, _, s, _, _⟩, hRow, _⟩
    simp only [Row.run_cons_iff, id_eq] at hRow
    rcases hRow with
      ⟨first, hRender, second, hConfig, third, hHeader, last,
        hRules, _⟩
    exact .inr ⟨first, c, second, hRender, hConfig,
      .inr ⟨third, hHeader, .inr ⟨⟨_, hRules⟩, hEnd⟩⟩⟩

/- After the settings a rejected text fails in what follows. -/
theorem cases_of_afterSettings
    {source rest : List Char}
    {f : Failure}
    (hReject : parse source = .error f)
    (hAfter : AfterSettings source rest) :
    (header "rules").run rest = .error f ∨
      ∃ third,
        (header "rules").run rest = .ok ((), third) ∧
        (rulesSection.run third = .error f ∨
          (∃ r, rulesSection.run third = .ok r) ∧
            f = .parse .expectedEnd) := by
  rcases run_of_afterSettings hAfter with
    ⟨first, c, second, hRender, hConfig, hSecond⟩
  rw [← (header_reads startsOutside_rules).run_congr hSecond]
  rcases cases_of_error hReject with
    hError | ⟨first', c', second', hRender', hConfig', hRest⟩
  · rw [hRender] at hError
    cases hError
  · rw [hRender] at hRender'
    cases hRender'
    rw [hConfig] at hConfig'
    cases hConfig'
    exact hRest

/-
  After both headers the first rule decides whether a rule or
  the end of the text is missing.
-/
theorem cases_of_afterHeaders
    {source rest : List Char}
    {f : Failure}
    (hReject : parse source = .error f)
    (hAfter : AfterHeaders source rest) :
    (¬ BeginsWith FileFormat.ruleLine rest ∧
        ∃ e ∈ ruleErrors, f = .parse e) ∨
      BeginsWith FileFormat.ruleLine rest ∧
        f = .parse .expectedEnd := by
  rcases hAfter with ⟨heading, hHeading, hSettings⟩
  rcases (header_reads startsOutside_rules).run_of_mem
      () heading hHeading rest with
    ⟨third, hHeader, hThird⟩
  have hFirst :
      (∃ r, rulesSection.run third = .ok r) ↔
        BeginsWith FileFormat.ruleLine rest := by
    rw [run_rulesSection_ok_iff, rule_reads.run_congr hThird,
      exists_run_rule_iff]
  rcases cases_of_afterSettings hReject hSettings with
    hError | ⟨third', hHeader', hRest⟩
  · rw [hHeader] at hError
    cases hError
  · rw [hHeader] at hHeader'
    cases hHeader'
    rw [← hFirst]
    rcases hRest with hError | hOk
    · refine .inl ⟨?_, rulesSection_failsBy third f hError⟩
      rintro ⟨r, hRun⟩
      rw [hError] at hRun
      cases hRun
    · exact .inr hOk

------------------------------------------------------------
-- Rejected Texts
------------------------------------------------------------

/- The parse error of a text blames it. -/
theorem blames_of_error
    {source : List Char}
    {e : ParseError}
    (hReject : parse source = .error (.parse e)) :
    Blames source e where
  opening := by
    intro hNone
    rw [← exists_run_header_iff startsOutside_render] at hNone
    rcases cases_of_error hReject with
      hError | ⟨first, _, _, hRender, _⟩
    · exact (header_failsBy "render").mem_of_error hError
    · exact absurd ⟨_, hRender⟩ hNone
  settings := exists_afterSettings
  heading := by
    intro rest hAfter hNone
    rw [← exists_run_header_iff startsOutside_rules] at hNone
    rcases cases_of_afterSettings hReject hAfter with
      hError | ⟨third, hHeader, _⟩
    · exact (header_failsBy "rules").mem_of_error hError
    · exact absurd ⟨_, hHeader⟩ hNone
  word := by
    intro rest hAfter hWord
    have hHeader := run_header_error hWord
    rcases cases_of_afterSettings hReject hAfter with
      hError | ⟨third, hOk, _⟩
    · rw [hHeader] at hError
      cases hError
      rfl
    · rw [hHeader] at hOk
      cases hOk
  firstRule := by
    intro rest hAfter hNone
    rcases cases_of_afterHeaders hReject hAfter with
      ⟨_, e', hMember, hSame⟩ | ⟨hRule, _⟩
    · cases hSame
      exact hMember
    · exact absurd hRule hNone
  ending := by
    intro rest hAfter hRule
    rcases cases_of_afterHeaders hReject hAfter with
      ⟨hNone, _⟩ | ⟨_, hSame⟩
    · exact absurd hRule hNone
    · cases hSame
      rfl

/-
  Every rejected text is rejected by a parse error that
  blames it for the first part it lacks, and that is neither
  custom nor unspecified: all numerals that are recognized
  are converted, and all rules that are read make a store.
-/
theorem parse_error_blames
    (source : List Char) :
    (∀ f, parse source = .error f →
      ∃ e, f = .parse e ∧ Blames source e ∧
        e ≠ .unspecified ∧ ∀ m, e ≠ .custom m) ∧
    (∀ text s rest,
      numeral.recognize.run text = .ok (s, rest) →
      ∃ x, Conversion.float s = .ok x) ∧
    ∀ text rules rest,
      (rule.atLeast 1).run text = .ok (rules, rest) →
      ∃ s, storeOf rules = .ok s := by
  refine ⟨fun f hReject => ?_,
    fun _ _ _ => exists_float_of_run_numeral,
    fun _ _ _ => exists_storeOf_of_run⟩
  rcases grammar_failsBy source f
      ((parse_eq_error_iff source f).mp hReject) with
    ⟨e, hMember, rfl⟩
  refine ⟨e, rfl, blames_of_error hReject, ?_, fun m => ?_⟩
  · rintro rfl
    simp [grammarErrors, headerErrors, ruleErrors] at hMember
  · rintro rfl
    simp [grammarErrors, headerErrors, ruleErrors] at hMember

/- A line of no key ends the settings, and is no header. -/
theorem parse_error_blames_unknownKey :
    parse "render:\ncolour = red\n".toList =
        .error (.parse (.expectedText "rules")) ∧
      Blames "render:\ncolour = red\n".toList
        (.expectedText "rules") := by
  have hReject :
      parse "render:\ncolour = red\n".toList =
        .error (.parse (.expectedText "rules")) := by
    with_unfolding_all rfl
  rcases (parse_error_blames _).1 _ hReject with
    ⟨e, hSame, hBlames, _⟩
  cases hSame
  exact ⟨hReject, hBlames⟩

end LSystem

end Lindenmayer
