import Lindenmayer.Proofs.Grammar.Attribution
import Lindenmayer.Proofs.Grammar.PlainFile

/-
  The colors that a grammar may give.

  A color is what is left of the value in the last line of its
  key when blanks are removed at both ends.  A value does not
  begin with a space or a tab, but there are other blanks: a
  value may consist of them alone, and then nothing is left.
  A line without any value is no line of the format, and the
  text that has it is rejected there.

  Key definitions include:
    * `FileFormat.blankTexts`
    * `FileFormat.otherLine`
    * `FileFormat.blankColor`
    * `FileFormat.missingColor`

  Correctness is proven by:
    * `Text.trim_eq_nil_iff`
    * `Config.color_ofSettings_eq_empty_iff`
    * `FileFormat.mem_blankColor_iff`
    * `Grammar.textLine_fails`
    * `LSystem.parse_missingColor`
    * `LSystem.colors_of_parse`
-/

------------------------------------------------------------
-- Trimmed Texts
------------------------------------------------------------

namespace Lindenmayer

namespace Text

/- Trimming on the left removes nothing but blanks. -/
theorem trimLeft_eq_nil_iff
    (cs : List Char) :
    trimLeft cs = [] ↔ ∀ c ∈ cs, isBlank c = true :=
  List.dropWhile_eq_nil_iff

theorem trimRight_eq_nil_iff
    (cs : List Char) :
    trimRight cs = [] ↔ ∀ c ∈ cs, isBlank c = true := by
  rw [trimRight, List.reverse_eq_nil_iff,
    List.dropWhile_eq_nil_iff]
  simp only [List.mem_reverse]

/- What is left by trimming on the right stands in front. -/
theorem prefix_trimRight
    (cs : List Char) :
    trimRight cs <+: cs := by
  rw [trimRight, ← List.reverse_suffix, List.reverse_reverse]
  exact List.dropWhile_suffix isBlank

/- Trimming makes no characters. -/
theorem mem_of_mem_trim
    {cs : List Char}
    {c : Char}
    (hMember : c ∈ trim cs) :
    c ∈ cs :=
  (List.dropWhile_suffix isBlank).subset
    ((prefix_trimRight (trimLeft cs)).subset hMember)

/- Nothing is left of a text exactly when all is blank. -/
theorem trim_eq_nil_iff
    (cs : List Char) :
    trim cs = [] ↔ ∀ c ∈ cs, isBlank c = true := by
  rw [trim, trimRight_eq_nil_iff]
  constructor
  · intro hBlank
    rw [← trimLeft_eq_nil_iff]
    cases hLeft : trimLeft cs with
    | nil => rfl
    | cons c left =>
        have hFirst := hBlank c (by simp [hLeft])
        have hVisible := head?_trimLeft cs c (by simp [hLeft])
        rw [hFirst] at hVisible
        cases hVisible
  · intro hBlank c hMember
    exact hBlank c
      ((List.dropWhile_suffix isBlank).subset hMember)

/- A trimmed text does not begin with a blank. -/
theorem head?_trim
    (cs : List Char) :
    ∀ c ∈ (trim cs).head?, isBlank c = false := by
  intro c hHead
  rcases prefix_trimRight (trimLeft cs) with ⟨right, hSplit⟩
  apply head?_trimLeft cs c
  rw [← hSplit]
  exact List.mem_head?_append_of_mem_head? hHead

/- Nor does it end with one. -/
theorem getLast?_trim
    (cs : List Char) :
    ∀ c ∈ (trim cs).getLast?, isBlank c = false := by
  intro c hLast
  rw [trim, trimRight, List.getLast?_reverse] at hLast
  exact not_holds_head?_dropWhile isBlank _ c hLast

/- A text on one line, without blanks at its ends. -/
structure Trimmed
    (cs : List Char) : Prop where
  line : ∀ c ∈ cs, c ≠ '\r' ∧ c ≠ '\n'
  first : ∀ c ∈ cs.head?, isBlank c = false
  last : ∀ c ∈ cs.getLast?, isBlank c = false

instance
    (cs : List Char) :
    Decidable (Trimmed cs) :=
  decidable_of_iff
    (cs.all (fun c => c != '\r' && c != '\n') = true ∧
      cs.head?.all (fun c => !isBlank c) = true ∧
      cs.getLast?.all (fun c => !isBlank c) = true)
    (by
      simp only [List.all_eq_true, Option.all_eq_true,
        Bool.and_eq_true, bne_iff_ne, Bool.not_eq_true']
      exact
        ⟨fun ⟨hLine, hFirst, hLast⟩ => ⟨hLine, hFirst, hLast⟩,
          fun ⟨hLine, hFirst, hLast⟩ =>
            ⟨hLine, hFirst, hLast⟩⟩)

/- Trimming keeps a text on its line. -/
theorem trimmed_trim
    {cs : List Char}
    (hLine : ∀ c ∈ cs, c ≠ '\r' ∧ c ≠ '\n') :
    Trimmed (trim cs) where
  line := fun c hMember => hLine c (mem_of_mem_trim hMember)
  first := head?_trim cs
  last := getLast?_trim cs

end Text

------------------------------------------------------------
-- Last Settings
------------------------------------------------------------

/- The setting that gives a key a color. -/
theorem Setting.color?_eq_some_iff
    (k : TextKey)
    (s : Setting)
    (u : String) :
    s.color? k = some u ↔ s = .text k u := by
  cases s with
  | decimal d x => simp [color?]
  | text k' v =>
      by_cases hKey : k' = k
      · simp [color?, hKey]
      · simp [color?, hKey]

namespace Config

/- No color is empty by default. -/
theorem color_default_ne_empty
    (k : TextKey) :
    color {} k ≠ "" := by
  cases k <;> decide

/-
  A color is empty exactly when the last setting of its key
  makes it so.
-/
theorem color_ofSettings_eq_empty_iff
    (settings : List Setting)
    (k : TextKey) :
    (ofSettings settings).color k = "" ↔
      ∃ before after,
        settings = before ++ .text k "" :: after ∧
          ∀ s ∈ after, s.color? k = none := by
  have hLast :
      (ofSettings settings).color k = "" ↔
        (settings.filterMap (Setting.color? k)).getLast? =
          some "" := by
    rw [color_ofSettings]
    cases (settings.filterMap (Setting.color? k)).getLast? with
    | none => simp [color_default_ne_empty k]
    | some u => simp
  rw [hLast, List.getLast?_filterMap,
    List.findSome?_eq_some_iff]
  constructor
  · intro hSplit
    rcases hSplit with
      ⟨after, s, before, hSettings, hColor, hNone⟩
    rw [List.reverse_eq_iff] at hSettings
    rw [Setting.color?_eq_some_iff] at hColor
    refine ⟨before.reverse, after.reverse, ?_, ?_⟩
    · rw [hSettings, hColor]
      simp
    · intro s' hMember
      exact hNone s' (List.mem_reverse.mp hMember)
  · intro hSplit
    rcases hSplit with ⟨before, after, rfl, hNone⟩
    refine ⟨after.reverse, .text k "", before.reverse,
      by simp, (Setting.color?_eq_some_iff _ _ _).mpr rfl, ?_⟩
    intro s hMember
    exact hNone s (List.mem_reverse.mp hMember)

end Config

------------------------------------------------------------
-- Files with Blank Colors
------------------------------------------------------------

namespace FileFormat

open scoped Computability
open Text (mem_prod_cons_iff)

/- The values of text keys in which nothing is visible. -/
def blankTexts : Language Char :=
  {t | t ∈ texts ∧ t ∈ blanks}

/- A line that gives a value to a key other than a text key. -/
def otherLine
    (k : TextKey) : Language Char :=
  {t | (∃ d : DecimalKey,
      t ∈ entry d.name (decimals * gaps)) ∨
    ∃ k' : TextKey, k' ≠ k ∧ t ∈ entry k'.name texts}

/-
  The files in which the last line of a text key has a value
  without anything visible.
-/
def blankColor
    (k : TextKey) : Language Char :=
  [header "render", settingLine∗, entry k.name blankTexts,
    (otherLine k)∗, header "rules", ruleLine, ruleLine∗,
    blanks].prod

/-
  The texts that begin like a file up to a line of a text key
  in which no value stands before the line end.
-/
def missingColor
    (k : TextKey) : Language Char :=
  [header "render", settingLine∗, entry k.name 1, ⊤].prod

/- The blank values are those of which nothing is left. -/
theorem textsOf_empty :
    textsOf "" = blankTexts := by
  ext t
  change (t ∈ texts ∧ _) ↔ t ∈ texts ∧ t ∈ blanks
  rw [String.ofList_eq_empty_iff, Text.trim_eq_nil_iff]
  rfl

/- Lines of other keys are those of settings of other keys. -/
theorem otherLine_eq_iSup
    (k : TextKey) :
    otherLine k =
      ⨆ s : {s : Setting // s.color? k = none},
        settingLineOf s := by
  ext t
  change (_ ∨ _) ↔ _
  rw [decimals_eq_iSup, texts_eq_iSup, Language.iSup_mul]
  simp only [entry_iSup, Language.mem_iSup]
  constructor
  · intro hLine
    rcases hLine with ⟨d, x, hLine⟩ | ⟨k', hOther, u, hLine⟩
    · exact ⟨⟨.decimal d x, rfl⟩, hLine⟩
    · exact ⟨⟨.text k' u, if_neg hOther⟩, hLine⟩
  · intro hSetting
    rcases hSetting with ⟨⟨⟨d, x⟩ | ⟨k', u⟩, hColor⟩, hLine⟩
    · exact Or.inl ⟨d, x, hLine⟩
    · refine Or.inr ⟨k', ?_, u, hLine⟩
      intro hKey
      rw [hKey, Setting.color?, if_pos rfl] at hColor
      cases hColor

/-
  The last line of a key is blank in exactly the files whose
  last setting of the key is empty.
-/
theorem mem_blankColor_iff
    (k : TextKey)
    (source : List Char) :
    source ∈ blankColor k ↔
      ∃ before after rules,
        source ∈
          fileOf (before ++ .text k "" :: after) rules ∧
        ∀ s ∈ after, s.color? k = none := by
  rw [blankColor, ← textsOf_empty, settingLine_eq_iSup,
    ruleLine_eq_iSup, otherLine_eq_iSup, Text.kstar_iSup,
    Text.kstar_iSup, Text.kstar_iSup]
  simp only [List.prod_cons, List.prod_nil, mul_one,
    Language.iSup_mul, Language.mul_iSup, Language.mem_iSup]
  have hLast :
      settingLineOf (.text k "") = entry k.name (textsOf "") :=
    rfl
  constructor
  · intro hLines
    rcases hLines with ⟨rules, r, after, before, hLines⟩
    refine ⟨before, after.map Subtype.val, r :: rules,
      ⟨List.cons_ne_nil r rules, ?_⟩, ?_⟩
    · simpa [hLast, mul_assoc, Function.comp_def]
        using hLines
    · intro s hMember
      rcases List.mem_map.mp hMember with ⟨⟨s, hNone⟩, _, rfl⟩
      exact hNone
  · intro hFile
    rcases hFile with
      ⟨before, after, rules, ⟨hNotNil, hLines⟩, hNone⟩
    lift after to List {s : Setting // s.color? k = none}
      using hNone
    cases rules with
    | nil => exact absurd rfl hNotNil
    | cons r rules =>
        refine ⟨rules, r, after, before, ?_⟩
        simpa [hLast, mul_assoc, Function.comp_def]
          using hLines

end FileFormat

------------------------------------------------------------
-- Lines without a Value
------------------------------------------------------------

/- The parts of a line without a value. -/
theorem FileFormat.exists_of_mem_missing
    {key : String}
    {t : List Char}
    (hLine : t ∈ entry key 1) :
    ∃ b ∈ blanks, ∃ g ∈ gaps, ∃ g' ∈ gaps, ∃ e ∈ newline,
      t =
        b ++ (key.toList ++ (g ++ ("=".toList ++ (g' ++ e)))) := by
  rw [entry, Text.mem_prod_cons_iff] at hLine
  rcases hLine with ⟨b, hBlank, _, hLine, rfl⟩
  rw [Text.mem_prod_cons_iff] at hLine
  rcases hLine with ⟨_, rfl, _, hLine, rfl⟩
  rw [Text.mem_prod_cons_iff] at hLine
  rcases hLine with ⟨g, hGap, _, hLine, rfl⟩
  rw [Text.mem_prod_cons_iff] at hLine
  rcases hLine with ⟨_, rfl, _, hLine, rfl⟩
  rw [Text.mem_prod_cons_iff] at hLine
  rcases hLine with ⟨g', hGap', _, hLine, rfl⟩
  rw [Text.mem_prod_cons_iff] at hLine
  rcases hLine with ⟨v, hNone, e, hEnd, rfl⟩
  rw [Language.mem_one] at hNone
  rw [Text.mem_prod_singleton_iff] at hEnd
  refine ⟨b, hBlank, g, hGap, g', hGap', e, hEnd, ?_⟩
  rw [hNone, List.nil_append]

namespace Grammar

/- At a line end there is no text. -/
theorem not_run_text_of_lineEnd
    {tail rest : List Char}
    {s : String}
    (hTail : ∀ c ∈ tail.head?, isText c = false) :
    text.run tail ≠ .ok (s, rest) := by
  intro hRun
  rcases (run_text_iff tail rest s).mp hRun with
    ⟨t, hNotNil, _, hTaken, _⟩
  cases tail with
  | nil => exact hNotNil hTaken
  | cons c tail =>
      rw [List.takeWhile_cons_of_neg
        (by simp [hTail c rfl])] at hTaken
      exact hNotNil hTaken

/-
  Where no value stands before the line end, the line of a
  text is not read: spaces and tabs are skipped, and a text
  has at least one character.
-/
theorem textLine_fails
    {key : String}
    (hStart : Text.StartsOutside Text.isBlank key.toList)
    (setting : String → Setting)
    {t : List Char}
    (hLine : t ∈ FileFormat.entry key 1)
    (tail : List Char) :
    ∃ e, (settingLine key text setting).run (t ++ tail) =
      .error (.parse e) := by
  cases hRun :
      (settingLine key text setting).run (t ++ tail) with
  | error f =>
      rcases settingLine_failsBy key text_failsBy setting _ f
          hRun with ⟨e, _, rfl⟩
      exact ⟨e, rfl⟩
  | ok r =>
      rcases r with ⟨s, rest⟩
      rcases FileFormat.exists_of_mem_missing hLine with
        ⟨b, hBlank, g, hGap, g', hGap', e, hEnd, rfl⟩
      have hTrimmed :
          Text.trimLeft
              (b ++ (key.toList ++
                (g ++ ("=".toList ++ (g' ++ e)))) ++ tail) =
            key.toList ++
              (g ++ ("=".toList ++ (g' ++ (e ++ tail)))) := by
        simp only [List.append_assoc]
        exact (hStart.append _).dropWhile_append hBlank
      have hEquals :
          Row.skipGap (g ++ ("=".toList ++ (g' ++ (e ++ tail)))) =
            "=".toList ++ (g' ++ (e ++ tail)) :=
        Row.skipGap_append hGap _
      have hTail := FileFormat.isText_of_newline hEnd tail
      rw [settingLine_eq_afterBlanks,
        Row.run_afterBlanks_iff] at hRun
      rcases hRun with ⟨⟨_, _, u, _, _⟩, left, hRow, _, _⟩
      simp only [Row.run_cons_iff, Row.skipGap_trimLeft,
        Parser.run_literal_iff] at hRow
      rcases hRow with
        ⟨behindKey, ⟨_, hKey⟩, behindEquals, ⟨_, hSign⟩, mid,
          hText, _⟩
      rw [hTrimmed, List.append_cancel_left_eq] at hKey
      rw [← hKey, hEquals, List.append_cancel_left_eq] at hSign
      rw [← hSign, skipGap_append_lineEnd hGap' hTail] at hText
      exact absurd hText (not_run_text_of_lineEnd hTail)

/- So no setting is read there. -/
theorem settings_fail_of_missing
    {k : TextKey}
    {t : List Char}
    (hLine : t ∈ FileFormat.entry k.name 1)
    (tail : List Char) :
    ¬ Text.BeginsWith FileFormat.settingLine (t ++ tail) := by
  have hKey := name_mem_words (.text k "")
  have hStart := startsOutside_of_mem_words hKey
  have hBegins := prefix_of_mem_line hStart hLine tail
  have hFails :
      ∃ e, (Parser.oneOf settingLines).run (t ++ tail) =
        .error (.parse e) := by
    apply Parser.firstMatch_fails
    intro p hMember
    rcases (mem_settingLines_iff p).mp hMember with ⟨s, rfl⟩
    by_cases hName : s.name = k.name
    · have hSame : s.name = (Setting.text k "").name := hName
      rw [lineParser_eq_of_name_eq hSame]
      exact textLine_fails hStart (.text k) hLine tail
    · apply lineParser_fails
      intro hOther
      exact hName
        (word_eq_of_begins (name_mem_words s) hKey hOther
          hBegins)
  rw [← exists_run_settings_iff]
  intro hRead
  rcases hRead with ⟨r, hRead⟩
  rcases hFails with ⟨e, hFails⟩
  rw [hFails] at hRead
  cases hRead

end Grammar

namespace LSystem

open Grammar

/-
  A text whose settings are followed by another word than the
  header of the rules is rejected for this header.
-/
theorem parse_of_afterSettings
    {source rest : List Char}
    (hAfter : FileFormat.AfterSettings source rest)
    (hWord : ¬ "rules".toList <+: Text.trimLeft rest) :
    parse source = .error (.parse (.expectedText "rules")) := by
  cases hParse : parse source with
  | ok l =>
      rcases run_of_afterSettings hAfter with
        ⟨first, c, second, hRender, hConfig, hSecond⟩
      rcases (parse_eq_ok_iff source l).mp hParse with
        ⟨_, hRun⟩
      rcases (run_grammar_iff source _ l).mp hRun with
        ⟨_, first', second', third, _, hRender', hConfig',
          hHeader, _⟩
      rw [hRender] at hRender'
      cases hRender'
      rw [hConfig] at hConfig'
      cases hConfig'
      rw [(header_reads startsOutside_rules).run_congr hSecond,
        run_header_error hWord] at hHeader
      cases hHeader
  | error f =>
      rcases grammar_failsBy source f
          ((parse_eq_error_iff source f).mp hParse) with
        ⟨e, _, rfl⟩
      rw [(blames_of_error hParse).word rest hAfter hWord]

/- So is a text with a line of a color that has no value. -/
theorem parse_missingColor
    {k : TextKey}
    {source : List Char}
    (hMissing : source ∈ FileFormat.missingColor k) :
    parse source = .error (.parse (.expectedText "rules")) := by
  rw [FileFormat.missingColor, Text.mem_prod_cons_iff]
    at hMissing
  rcases hMissing with ⟨opening, hOpening, _, hMissing, rfl⟩
  rw [Text.mem_prod_cons_iff] at hMissing
  rcases hMissing with ⟨lines, hLines, _, hMissing, rfl⟩
  rw [Text.mem_prod_cons_iff] at hMissing
  rcases hMissing with ⟨line, hLine, tail, _, rfl⟩
  have hKey := name_mem_words (.text k "")
  have hBegins := prefix_of_mem_line
    (startsOutside_of_mem_words hKey) hLine tail
  have hOther : (Setting.text k "").name ≠ "rules" := by
    cases k <;> decide
  have hAfter :
      FileFormat.AfterSettings
        (opening ++ (lines ++ (line ++ tail)))
        (line ++ tail) :=
    ⟨opening, hOpening, lines, hLines, rfl,
      settings_fail_of_missing hLine tail⟩
  apply parse_of_afterSettings hAfter
  intro hRules
  exact hOther
    (word_eq_of_begins hKey List.mem_cons_self hBegins hRules)

------------------------------------------------------------
-- Colors
------------------------------------------------------------

/- What a file gives for a color is a trimmed text. -/
theorem trimmed_of_mem
    {settings : List Setting}
    {rules : List (Rule Char)}
    {source : List Char}
    (hFile : source ∈ FileFormat.fileOf settings rules)
    {k : TextKey}
    {u : String}
    (hColor : .text k u ∈ settings) :
    Text.Trimmed u.toList := by
  rcases hFile with ⟨_, hFile⟩
  rw [Text.mem_prod_cons_iff] at hFile
  rcases hFile with ⟨_, _, _, hFile, _⟩
  rw [Text.mem_prod_cons_iff] at hFile
  rcases hFile with ⟨_, hLines, _, _, _⟩
  rcases Text.exists_mem_of_mem_prod_map hLines hColor with
    ⟨line, hLine⟩
  change line ∈ List.prod ([_, _, _, _, _] ++ [_, _]) at hLine
  rw [List.prod_append] at hLine
  rcases Language.mem_mul.mp hLine with ⟨_, _, _, hValue, _⟩
  rw [Text.mem_prod_cons_iff] at hValue
  rcases hValue with ⟨t, ⟨⟨_, hText, _⟩, hTrim⟩, _⟩
  rw [← hTrim, String.toList_ofList]
  exact Text.trimmed_trim hText

/- So is every color of an L-system that is parsed. -/
theorem trimmed_color
    {source : List Char}
    {l : LSystem}
    (hParse : parse source = .ok l)
    (k : TextKey) :
    Text.Trimmed (l.config.color k).toList := by
  rcases exists_fileOf_of_parse hParse with
    ⟨settings, rules, hFile, hMade⟩
  rw [hMade.color]
  cases hLast :
      (settings.filterMap (Setting.color? k)).getLast? with
  | none =>
      cases k with
      | pen => decide
      | background => decide
  | some u =>
      have hColor := List.mem_of_getLast? hLast
      rcases List.mem_filterMap.mp hColor with
        ⟨s, hMember, hValue⟩
      rw [Setting.color?_eq_some_iff] at hValue
      rw [hValue] at hMember
      exact trimmed_of_mem hFile hMember

/- A color is empty where the value of its line is blank. -/
theorem color_eq_empty_iff
    {source : List Char}
    {l : LSystem}
    (hParse : parse source = .ok l)
    (k : TextKey) :
    l.config.color k = "" ↔
      source ∈ FileFormat.blankColor k := by
  rw [FileFormat.mem_blankColor_iff]
  constructor
  · intro hEmpty
    rcases exists_fileOf_of_parse hParse with
      ⟨settings, rules, hFile, hMade⟩
    rw [(madeOf_iff l settings rules).mp hMade,
      Config.color_ofSettings_eq_empty_iff] at hEmpty
    rcases hEmpty with ⟨before, after, hSettings, hNone⟩
    rw [hSettings] at hFile
    exact ⟨before, after, rules, hFile, hNone⟩
  · intro hBlank
    rcases hBlank with ⟨before, after, rules, hFile, hNone⟩
    rw [parse_of_mem_fileOf hFile] at hParse
    cases hParse
    rw [Config.color_ofSettings_eq_empty_iff]
    exact ⟨before, after, rfl, hNone⟩

/-
  The colors of a text that is parsed stand on one line, and
  neither begin nor end with a blank.  A color is empty just
  when the value in the last line of its key consists of
  blanks, of which the first is no space and no tab.  Where
  there are only spaces and tabs, the line is not read, and
  the text is rejected for the header that does not follow.
-/
theorem colors_of_parse
    (source : List Char) :
    (∀ l, parse source = .ok l → ∀ k : TextKey,
      Text.Trimmed (l.config.color k).toList ∧
        (l.config.color k = "" ↔
          source ∈ FileFormat.blankColor k)) ∧
    ∀ k, source ∈ FileFormat.missingColor k →
      parse source =
        .error (.parse (.expectedText "rules")) := by
  constructor
  · intro l hParse k
    exact ⟨trimmed_color hParse k, color_eq_empty_iff hParse k⟩
  · intro k hMissing
    exact parse_missingColor hMissing

/-
  A no-break space is all that the value of the pen consists
  of.  The text is parsed, and nothing is left of the color.
-/
theorem noBreakSpace_parsed :
    (parse "render:\npen_color = \u00a0\nrules:\nF => F\n".toList
        ).map (fun l => l.config.pen) = .ok "" := by
  decide +kernel

/- That color is empty, and a tab is no color at all. -/
theorem colors_of_parse_blankPen :
    let blank :=
      "render:\npen_color = \u00a0\nrules:\nF => F\n".toList
    let missing :=
      "render:\npen_color=\t\nrules:\nF => F\n".toList
    (∃ l, parse blank = .ok l ∧
      Text.Trimmed (l.config.color .pen).toList ∧
      blank ∈ FileFormat.blankColor .pen) ∧
    missing ∈ FileFormat.missingColor .pen ∧
    parse missing =
      .error (.parse (.expectedText "rules")) := by
  intro blank missing
  have hEmpty :
      (parse blank).map (fun l => l.config.color .pen) =
        .ok "" := by
    decide +kernel
  have hTab : ['\t'] ∈ FileFormat.gaps := by
    intro c hMember
    rw [List.mem_singleton.mp hMember]
    rfl
  have hLine :
      TextKey.pen.name.toList ++
          (['='] ++ (['\t'] ++ ([] ++ ['\n']))) ∈
        FileFormat.entry TextKey.pen.name 1 :=
    FileFormat.mem_prod_runsOf_cons
      (Text.append_mem_prod_cons rfl
        (FileFormat.mem_prod_runsOf_cons
          (Text.append_mem_prod_cons rfl
            (Text.append_mem_prod_cons hTab
              (Text.append_mem_prod_cons Language.nil_mem_one
                FileFormat.feed_mem_newline)))))
  have hSplit :
      missing =
        FileFormat.plainHeader "render" ++
          ([] ++ ((TextKey.pen.name.toList ++
            (['='] ++ (['\t'] ++ ([] ++ ['\n'])))) ++
              "rules:\nF => F\n".toList)) := by
    decide +kernel
  have hMissing : missing ∈ FileFormat.missingColor .pen := by
    rw [hSplit]
    exact Text.append_mem_prod_cons
      (FileFormat.plainHeader_mem "render")
      (Text.append_mem_prod_cons (Language.nil_mem_kstar _)
        (Text.append_mem_prod_cons hLine
          ((Text.mem_prod_singleton_iff _ _).mpr trivial)))
  refine
    ⟨?_, hMissing, (colors_of_parse missing).2 .pen hMissing⟩
  cases hParse : parse blank with
  | error f =>
      rw [hParse] at hEmpty
      cases hEmpty
  | ok l =>
      rw [hParse, Except.map, Except.ok.injEq] at hEmpty
      rcases (colors_of_parse blank).1 l hParse .pen with
        ⟨hTrimmed, hBlank⟩
      exact ⟨l, rfl, hTrimmed, hBlank.mp hEmpty⟩

end LSystem

end Lindenmayer
