import Lindenmayer.Grammar.LSystem
import Lindenmayer.Proofs.Grammar.Values

/-
  The lines of grammar files are read as the format has them:
  headers, settings and rules.

  No key begins another key, and none begins a header, so the
  first parser of a setting that matches is the only one, and
  settings end where the rules section begins.

  Key definitions include:
    * `Grammar.words`
    * `Grammar.lineParser`

  Correctness is proven by:
    * `Grammar.header_reads`
    * `Grammar.settings_reads`
    * `Grammar.rule_reads`
    * `Grammar.settings_fail_of_header`
    * `Grammar.rule_fails_of_blanks`
-/

------------------------------------------------------------
-- Headers and Keys
------------------------------------------------------------

namespace Lindenmayer

open Text (isBlank runsOf StartsOutside)

/- A line that begins with a word starts where the word does. -/
theorem FileFormat.startsOutside_of_mem_word_mul
    {holds : Char → Bool}
    {s : String}
    (hStart : StartsOutside holds s.toList)
    {l : Language Char}
    {t : List Char}
    (hMember : t ∈ FileFormat.word s * l) :
    StartsOutside holds t := by
  rcases Language.mem_mul.mp hMember with ⟨_, rfl, t, _, rfl⟩
  exact hStart.append t

namespace Grammar

/- A header is read by its name. -/
theorem header_reads
    {name : String}
    (hStart : StartsOutside isBlank name.toList) :
    (header name).Reads isBlank
      (fun _ => FileFormat.header name) := by
  refine (colon_readsValue.line.literal hStart).reads
    (fun _ _ => FileFormat.startsOutside_of_mem_word_mul hStart)
    id (fun _ => ()) id (fun _ => rfl) _ ?_
  intro u t
  simp [FileFormat.header, mul_assoc]

/- The names of all keys. -/
def keyNames : List String :=
  DecimalKey.all.map DecimalKey.name ++
    TextKey.all.map TextKey.name

theorem name_mem_keyNames
    (s : Setting) :
    s.name ∈ keyNames := by
  rw [keyNames, List.mem_append]
  rcases s with ⟨k, _⟩ | ⟨k, _⟩
  · exact Or.inl (List.mem_map_of_mem k.mem_all)
  · exact Or.inr (List.mem_map_of_mem k.mem_all)

/- The words that lines after the first may begin with. -/
def words : List String :=
  "rules" :: keyNames

theorem name_mem_words
    (s : Setting) :
    s.name ∈ words :=
  List.mem_cons_of_mem "rules" (name_mem_keyNames s)

theorem startsOutside_of_mem_words
    {w : String}
    (hWord : w ∈ words) :
    StartsOutside isBlank w.toList := by
  have hHeads :
      ∀ w ∈ words,
        (w.toList.head?.any fun c => !isBlank c) = true := by
    decide
  have hHead := hHeads w hWord
  rw [Option.any_eq_true] at hHead
  rcases hHead with ⟨c, hFirst, hBlank⟩
  exact ⟨c, hFirst, by simpa using hBlank⟩

/- No such word begins another one. -/
theorem words_apart :
    ∀ u ∈ words, ∀ v ∈ words, u.toList <+: v.toList →
      u = v := by
  decide

/- Two such words that begin one text are the same. -/
theorem word_eq_of_begins
    {u v : String}
    (hFirst : u ∈ words)
    (hSecond : v ∈ words)
    {text : List Char}
    (hBegins : u.toList <+: text)
    (hBegins' : v.toList <+: text) :
    u = v := by
  rcases List.prefix_or_prefix_of_prefix hBegins hBegins' with
    hPrefix | hPrefix
  · exact words_apart u hFirst v hSecond hPrefix
  · exact (words_apart v hSecond u hFirst hPrefix).symm

/- A line of a word begins with it after the blanks. -/
theorem prefix_of_mem_line
    {s : String}
    (hStart : StartsOutside isBlank s.toList)
    {l : List (Language Char)}
    {t : List Char}
    (hMember :
      t ∈ (FileFormat.blanks :: FileFormat.word s :: l).prod)
    (tail : List Char) :
    s.toList <+: Text.trimLeft (t ++ tail) := by
  rw [Text.mem_prod_cons_iff] at hMember
  rcases hMember with ⟨b, hBlank, _, hRest, rfl⟩
  rw [Text.mem_prod_cons_iff] at hRest
  rcases hRest with ⟨_, rfl, t, _, rfl⟩
  refine ⟨t ++ tail, ?_⟩
  rw [List.append_assoc, List.append_assoc, Text.trimLeft,
    (hStart.append (t ++ tail)).dropWhile_append hBlank]

------------------------------------------------------------
-- Settings
------------------------------------------------------------

theorem settingLine_eq_afterBlanks
    {α : Type}
    (key : String)
    (p : Parser α)
    (setting : α → Setting) :
    settingLine key p setting =
      (Row.cons (.literal key)
        (.cons (.literal "=")
          (.cons p (.cons newline .nil)))).afterBlanks
        (fun r => setting r.2.2.1) id :=
  rfl

/- The line of a key is read with its value. -/
theorem settingLine_reads
    {α : Type}
    {key : String}
    (hStart : StartsOutside isBlank key.toList)
    {p : Parser α}
    {valueOf : α → Language Char}
    (hValue : p.ReadsValue id valueOf)
    (setting : α → Setting) :
    (settingLine key p setting).Reads isBlank
      (fun s =>
        {t | ∃ a, s = setting a ∧
          t ∈ FileFormat.entry key (valueOf a)}) := by
  have hEquals : StartsOutside isBlank "=".toList :=
    ⟨'=', rfl, rfl⟩
  rw [settingLine_eq_afterBlanks]
  refine ((hValue.line.literal hEquals).literal hStart).reads
    (fun _ _ => FileFormat.startsOutside_of_mem_word_mul hStart)
    (fun r => setting r.2.2.1) id setting (fun _ => rfl) _ ?_
  intro s t
  change (∃ a, _ ∧ t ∈ FileFormat.entry key (valueOf a)) ↔ _
  simp [FileFormat.entry]

/- Where its key does not stand, the line is not read. -/
theorem settingLine_fails
    {α : Type}
    {key : String}
    (p : Parser α)
    (setting : α → Setting)
    {text : List Char}
    (hKey : ¬ key.toList <+: Text.trimLeft text) :
    ∃ e, (settingLine key p setting).run text =
      .error (.parse e) := by
  rw [settingLine_eq_afterBlanks]
  exact ⟨.expectedText key, Row.run_afterBlanks_literal hKey⟩

/- The parser of the line that a setting's key has. -/
def lineParser : Setting → Parser Setting
  | .decimal k _ => settingLine k.name decimal (.decimal k)
  | .text k _ => settingLine k.name text (.text k)

/- The parsers of settings are those of the keys. -/
theorem mem_settingLines_iff
    (p : Parser Setting) :
    p ∈ settingLines ↔ ∃ s, p = lineParser s := by
  simp only [settingLines, List.mem_append, List.mem_map]
  constructor
  · intro hMember
    rcases hMember with ⟨k, _, rfl⟩ | ⟨k, _, rfl⟩
    · exact ⟨.decimal k 0, rfl⟩
    · exact ⟨.text k "", rfl⟩
  · intro hParser
    rcases hParser with ⟨⟨k, _⟩ | ⟨k, _⟩, rfl⟩
    · exact Or.inl ⟨k, k.mem_all, rfl⟩
    · exact Or.inr ⟨k, k.mem_all, rfl⟩

/- Settings of one key have one parser. -/
theorem lineParser_eq_of_name_eq
    {s s' : Setting}
    (hName : s.name = s'.name) :
    lineParser s = lineParser s' := by
  have hDecimal :
      ∀ k ∈ DecimalKey.all, ∀ k' ∈ DecimalKey.all,
        k.name = k'.name → k = k' := by
    decide
  have hText :
      ∀ k ∈ TextKey.all, ∀ k' ∈ TextKey.all,
        k.name = k'.name → k = k' := by
    decide
  have hApart :
      ∀ k ∈ DecimalKey.all, ∀ k' ∈ TextKey.all,
        k.name ≠ k'.name := by
    decide
  rcases s with ⟨k, _⟩ | ⟨k, _⟩
  · rcases s' with ⟨k', _⟩ | ⟨k', _⟩
    · rw [lineParser, lineParser,
        hDecimal k k.mem_all k' k'.mem_all hName]
    · exact absurd hName (hApart k k.mem_all k' k'.mem_all)
  · rcases s' with ⟨k', _⟩ | ⟨k', _⟩
    · exact absurd hName.symm
        (hApart k' k'.mem_all k k.mem_all)
    · rw [lineParser, lineParser,
        hText k k.mem_all k' k'.mem_all hName]

/- Where its key does not stand, its parser fails. -/
theorem lineParser_fails
    (s : Setting)
    {text : List Char}
    (hKey : ¬ s.name.toList <+: Text.trimLeft text) :
    ∃ e, (lineParser s).run text = .error (.parse e) := by
  rcases s with ⟨k, x⟩ | ⟨k, u⟩
  · exact settingLine_fails decimal (.decimal k) hKey
  · exact settingLine_fails Grammar.text (.text k) hKey

/- What a key's parser takes is the line of a setting. -/
theorem exists_of_run_lineParser
    (s : Setting)
    {text rest : List Char}
    {s' : Setting}
    (hRun : (lineParser s).run text = .ok (s', rest)) :
    ∃ t ∈ FileFormat.settingLineOf s',
      ∃ g ∈ runsOf isBlank, text = t ++ (g ++ rest) := by
  have hStart :=
    startsOutside_of_mem_words (name_mem_words s)
  rcases s with ⟨k, _⟩ | ⟨k, _⟩
  · have hReads := settingLine_reads hStart
      decimal_readsValue (.decimal k)
    rcases hReads.exists_of_run text s' rest hRun with
      ⟨t, ⟨x, rfl, hLine⟩, hBehind⟩
    exact ⟨t, hLine, hBehind⟩
  · have hReads := settingLine_reads hStart
      text_readsValue (.text k)
    rcases hReads.exists_of_run text s' rest hRun with
      ⟨t, ⟨x, rfl, hLine⟩, hBehind⟩
    exact ⟨t, hLine, hBehind⟩

/- A line of a setting is read by the parser of its key. -/
theorem run_lineParser_of_mem
    (s : Setting)
    {t : List Char}
    (hMember : t ∈ FileFormat.settingLineOf s)
    (tail : List Char) :
    ∃ rest, (lineParser s).run (t ++ tail) = .ok (s, rest) ∧
      rest.dropWhile isBlank = tail.dropWhile isBlank := by
  have hStart :=
    startsOutside_of_mem_words (name_mem_words s)
  rcases s with ⟨k, x⟩ | ⟨k, u⟩
  · have hReads := settingLine_reads hStart
      decimal_readsValue (.decimal k)
    exact hReads.run_of_mem (.decimal k x) t
      ⟨x, rfl, hMember⟩ tail
  · have hReads := settingLine_reads hStart
      text_readsValue (.text k)
    exact hReads.run_of_mem (.text k u) t
      ⟨u, rfl, hMember⟩ tail

/- A line of a setting begins with its key. -/
theorem prefix_of_mem_settingLineOf
    {s : Setting}
    {t : List Char}
    (hMember : t ∈ FileFormat.settingLineOf s)
    (tail : List Char) :
    s.name.toList <+: Text.trimLeft (t ++ tail) := by
  have hStart :=
    startsOutside_of_mem_words (name_mem_words s)
  rcases s with ⟨k, x⟩ | ⟨k, u⟩
  · exact prefix_of_mem_line hStart hMember tail
  · exact prefix_of_mem_line hStart hMember tail

/-
  The lines of settings are read.  The key at the beginning
  of a line leaves only its own parser to match.
-/
theorem settings_reads :
    (Parser.oneOf settingLines).Reads isBlank
      FileFormat.settingLineOf where
  run_dropWhile := by
    intro text
    apply Parser.firstMatch_congr
    intro p hMember
    rcases (mem_settingLines_iff p).mp hMember with ⟨s, rfl⟩
    rcases s with ⟨k, _⟩ | ⟨k, _⟩ <;>
    · rw [lineParser, settingLine_eq_afterBlanks]
      exact Row.run_afterBlanks_dropWhile _ _ _ text
  ne_nil := by
    intro s t hMember
    rintro rfl
    have hPrefix := prefix_of_mem_settingLineOf hMember []
    have hStart :=
      startsOutside_of_mem_words (name_mem_words s)
    exact hStart.ne_nil (List.prefix_nil.mp hPrefix)
  append_mem := by
    intro s g hBlank t hMember
    rcases s with ⟨k, x⟩ | ⟨k, u⟩ <;>
    · exact Text.append_mem_runsOf_mul hBlank hMember
  exists_of_run := by
    intro text s rest hRun
    rcases (Parser.firstMatch_eq_ok_iff text _ _).mp hRun with
      ⟨before, p, later, hSplit, hMatch, _⟩
    have hMember : p ∈ settingLines := by
      rw [hSplit]
      simp
    rcases (mem_settingLines_iff p).mp hMember with ⟨s', rfl⟩
    exact exists_of_run_lineParser s' hMatch
  run_of_mem := by
    intro s t hMember tail
    rcases run_lineParser_of_mem s hMember tail with
      ⟨rest, hRun, hRest⟩
    refine ⟨rest, ?_, hRest⟩
    apply Parser.firstMatch_eq_ok_of_mem
      ((mem_settingLines_iff _).mpr ⟨s, rfl⟩) hRun
    intro q hLine
    rcases (mem_settingLines_iff q).mp hLine with ⟨s', rfl⟩
    by_cases hKey :
        s'.name.toList <+: Text.trimLeft (t ++ tail)
    · have hName := word_eq_of_begins (name_mem_words s')
        (name_mem_words s) hKey
        (prefix_of_mem_settingLineOf hMember tail)
      rw [lineParser_eq_of_name_eq hName]
      exact Or.inl hRun
    · exact Or.inr (lineParser_fails s' hKey)

/- Where the rules section begins, no setting is read. -/
theorem settings_fail_of_header
    {t : List Char}
    (hHeader : t ∈ FileFormat.header "rules")
    (tail : List Char) :
    ∃ e, (Parser.oneOf settingLines).run (t ++ tail) =
      .error (.parse e) := by
  have hWord : "rules" ∈ words := List.mem_cons_self
  have hNoKey : "rules" ∉ keyNames := by decide
  have hBegins := prefix_of_mem_line
    (startsOutside_of_mem_words hWord) hHeader tail
  apply Parser.firstMatch_fails
  intro q hLine
  rcases (mem_settingLines_iff q).mp hLine with ⟨s, rfl⟩
  apply lineParser_fails
  intro hKey
  have hName :=
    word_eq_of_begins hWord (name_mem_words s) hBegins hKey
  rw [hName] at hNoKey
  exact hNoKey (name_mem_keyNames s)

------------------------------------------------------------
-- Rules
------------------------------------------------------------

theorem rule_eq_afterBlanks :
    rule =
      (Row.cons symbol
        (.cons (.literal "=>")
          (.cons (symbol.atLeast 1)
            (.cons newline .nil)))).afterBlanks
        (fun r => Rule.mk r.1 r.2.2.1) id :=
  rfl

/- What begins with a symbol begins with no blank. -/
theorem startsOutside_of_mem_symbolOf_mul
    {c : Char}
    {l : Language Char}
    {t : List Char}
    (hMember : t ∈ FileFormat.symbolOf c * l) :
    StartsOutside isBlank t := by
  rcases Language.mem_mul.mp hMember with
    ⟨_, ⟨hLow, hHigh, rfl⟩, t, _, rfl⟩
  exact ⟨c, rfl, isBlank_of_isSymbol c
    ((isSymbol_iff c).mpr ⟨hLow, hHigh⟩)⟩

/-
  The line of a rule ends with a production, which has no
  text when it is empty.
-/
theorem mem_ruleLineOf_iff
    (r : Rule Char)
    (t : List Char) :
    t ∈ FileFormat.ruleLineOf r ↔
      t ∈ FileFormat.blanks *
        (FileFormat.symbolOf r.symbol *
          (FileFormat.gaps *
            (FileFormat.word "=>" *
              (FileFormat.gaps *
                (FileFormat.productionOf r.production *
                  FileFormat.newline))))) := by
  change (r.production ≠ [] ∧ t ∈ List.prod _) ↔ _
  by_cases hNil : r.production = []
  · rw [hNil, FileFormat.productionOf]
    simp
  · rw [← mul_assoc FileFormat.gaps
        (FileFormat.productionOf r.production),
      FileFormat.gaps_mul_productionOf hNil]
    simp [hNil, mul_assoc]

/- The line of a rule is read with its symbols. -/
theorem rule_reads :
    rule.Reads isBlank FileFormat.ruleLineOf := by
  have hArrow : StartsOutside isBlank "=>".toList :=
    ⟨'=', rfl, rfl⟩
  rw [rule_eq_afterBlanks]
  refine
    ((production_readsValue.line.literal hArrow).symbol).reads
      (fun _ _ => startsOutside_of_mem_symbolOf_mul)
      (fun r => Rule.mk r.1 r.2.2.1) id
      (fun b => Rule.mk b.1 b.2) (fun _ => rfl) _ ?_
  intro r t
  rw [mem_ruleLineOf_iff]
  constructor
  · intro hLine
    exact ⟨(r.symbol, r.production), rfl, hLine⟩
  · intro hBuilt
    rcases hBuilt with ⟨b, rfl, hLine⟩
    exact hLine

/- Where only blanks are left, no rule is read. -/
theorem rule_fails_of_blanks
    {t : List Char}
    (hBlank : t ∈ FileFormat.blanks) :
    ∃ e, rule.run t = .error (.parse e) := by
  have hNil : Text.trimLeft t = [] :=
    List.dropWhile_eq_nil_iff.mpr hBlank
  rw [rule_eq_afterBlanks]
  refine ⟨.endOfInput, ?_⟩
  apply Row.run_afterBlanks_error
  rw [hNil]
  rfl

end Grammar

end Lindenmayer
