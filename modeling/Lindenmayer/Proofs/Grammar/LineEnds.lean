import Lindenmayer.Grammar.Reading
import Lindenmayer.Proofs.Grammar.Failures
import Lindenmayer.Proofs.Parser.LineEnds

/-
  Grammars do not tell line ends apart.

  A line end is read whole, whichever it is, and nothing else
  in a grammar takes one of its characters but blanks, which
  may be any of them.  So a file may be read with its line
  ends translated or as it is.

  Correctness is proven by:
    * `Grammar.newline_ignoresLineEnds`
    * `Grammar.grammar_ignoresLineEnds`
    * `LSystem.parse_ignores_lineEnds`
-/

------------------------------------------------------------
-- Lexical Parts
------------------------------------------------------------

namespace Lindenmayer

open Text (EndsLine unifyNewlines)

namespace Grammar

/-
  A line end of two characters is taken as one, so that none
  of them is left for the next line.
-/
theorem newline_ignoresLineEnds :
    newline.IgnoresLineEnds fun _ => () := by
  intro text
  fun_cases unifyNewlines text with
  | case1 => exact .inl ⟨_, rfl, rfl⟩
  | case2 cs =>
      exact .inr ⟨"\r\n", "\n", cs, rfl, rfl, rfl⟩
  | case3 c cs hAlone =>
      by_cases hReturn : c = '\r'
      · subst hReturn
        rw [if_pos rfl]
        refine .inr ⟨"\r", "\n", cs, ?_, rfl, rfl⟩
        cases cs with
        | nil => rfl
        | cons d cs =>
            have hFeed : d ≠ '\n' := by
              rintro rfl
              exact hAlone cs rfl rfl
            simp [newline, Parser.oneOf, Parser.firstMatch,
              Parser.literal, List.isPrefixOf?,
              Ne.symm hFeed]
      · rw [if_neg hReturn]
        by_cases hFeed : c = '\n'
        · subst hFeed
          exact .inr ⟨"\n", "\n", cs, rfl, rfl, rfl⟩
        · refine .inl ⟨.parse .noAlternative, ?_, ?_⟩ <;>
          · simp [newline, Parser.oneOf, Parser.firstMatch,
              Parser.literal, List.isPrefixOf?,
              Ne.symm hReturn, Ne.symm hFeed]

theorem digits_ignoresLineEnds :
    (digit.atLeast 1).IgnoresLineEnds id := by
  have hDigit : ∀ c, EndsLine c → isDigit c = false := by
    rintro c (rfl | rfl) <;> rfl
  exact (Parser.ignoresLineEnds_anyChar hDigit _).atLeast
    (Parser.consumes_anyChar _ _) 1

/- A numeral is made of digits and a point. -/
theorem numeral_takesNoReturn :
    numeral.TakesNoReturn := by
  intro text a rest hRun
  have hText := (Parser.run_recognize_iff _ _ _ _).mpr
    ⟨a, hRun, rfl⟩
  rcases (run_numeral_iff _ _ _).mp hText with
    ⟨whole, fraction, _, _, hSplit, hWhole, hFraction, _⟩
  refine ⟨whole ++ '.' :: fraction, ?_, hSplit⟩
  have hDigits := Text.takeWhile_mem_runsOf isDigit
  have hReturn : isDigit '\r' = false := rfl
  intro hMember
  rcases List.mem_append.mp hMember with hMember | hMember
  · rw [hWhole] at hMember
    cases hReturn.symm.trans (hDigits text '\r' hMember)
  · rcases List.mem_cons.mp hMember with hPoint | hMember
    · cases hPoint
    · rw [hFraction] at hMember
      cases hReturn.symm.trans (hDigits _ '\r' hMember)

theorem decimal_ignoresLineEnds :
    decimal.IgnoresLineEnds id := by
  have hRow :=
    ((Row.ignoresLineEnds_nil.cons
      digits_ignoresLineEnds).cons
        (Parser.ignoresLineEnds_char (c := '.')
          (by simp [EndsLine]))).cons digits_ignoresLineEnds
  rw [decimal_eq_tryMap]
  have hNumeral : numeral.IgnoresLineEnds _ :=
    hRow.sequence id id fun _ => rfl
  exact (hNumeral.recognize numeral_takesNoReturn).tryMap
    "float" _

theorem text_ignoresLineEnds :
    Grammar.text.IgnoresLineEnds id := by
  have hText : ∀ c, EndsLine c → isText c = false := by
    rintro c (rfl | rfl) <;> rfl
  have hLine :=
    (Parser.ignoresLineEnds_anyChar hText "<text>").atLeast
      (Parser.consumes_anyChar _ _) 1
  refine (hLine.recognize ?_).map "strip" _
  intro text cs rest hRun
  rcases (Parser.run_atLeast_anyChar_iff _ _ _ _ _).mp hRun
    with ⟨_, rfl, rfl⟩
  refine ⟨text.takeWhile isText, fun hReturn => ?_,
    List.takeWhile_append_dropWhile.symm⟩
  cases Text.takeWhile_mem_runsOf isText text '\r' hReturn

theorem symbol_ignoresLineEnds :
    symbol.IgnoresLineEnds id := by
  have hSymbol : ∀ c, EndsLine c → isSymbol c = false := by
    rintro c (rfl | rfl) <;> rfl
  exact (Row.ignoresLineEnds_nil.cons
    (Parser.ignoresLineEnds_anyChar hSymbol _)).spaced
      Prod.fst Prod.fst fun _ => rfl

------------------------------------------------------------
-- Lines
------------------------------------------------------------

/- Words without blanks have no line ends in them. -/
theorem word_ignoresLineEnds
    {s : String}
    (hWord : s.toList.all fun c => !Text.isBlank c) :
    (Parser.literal s).IgnoresLineEnds id := by
  apply Parser.ignoresLineEnds_literal
  rintro c hMember (rfl | rfl) <;>
  · have hBlank := List.all_eq_true.mp hWord _ hMember
    cases hBlank

theorem header_ignoresLineEnds
    {name : String}
    (hName : name.toList.all fun c => !Text.isBlank c) :
    (header name).IgnoresLineEnds id := by
  rw [header_eq_afterBlanks]
  exact (((Row.ignoresLineEnds_nil.cons
    newline_ignoresLineEnds).cons
      (Parser.ignoresLineEnds_char (c := ':')
        (by simp [EndsLine]))).cons
          (word_ignoresLineEnds hName)).afterBlanks
            id _ (fun _ => ()) fun _ => rfl

theorem settingLine_ignoresLineEnds
    {α : Type}
    {key : String}
    (hKey : key.toList.all fun c => !Text.isBlank c)
    {p : Parser α}
    (hValue : p.IgnoresLineEnds id)
    (setting : α → Setting) :
    (settingLine key p setting).IgnoresLineEnds id := by
  rw [settingLine_eq_afterBlanks]
  exact ((((Row.ignoresLineEnds_nil.cons
    newline_ignoresLineEnds).cons hValue).cons
      (word_ignoresLineEnds (by decide))).cons
        (word_ignoresLineEnds hKey)).afterBlanks
          _ id (fun r => setting r.2.2.1) fun _ => rfl

theorem settings_ignoresLineEnds :
    (Parser.oneOf settingLines).IgnoresLineEnds id := by
  apply Parser.IgnoresLineEnds.oneOf
  intro p hLine
  rcases (mem_settingLines_iff p).mp hLine with
    ⟨⟨k, _⟩ | ⟨k, _⟩, rfl⟩
  · exact settingLine_ignoresLineEnds
      (by cases k <;> decide) decimal_ignoresLineEnds _
  · exact settingLine_ignoresLineEnds
      (by cases k <;> decide) text_ignoresLineEnds _

theorem rule_ignoresLineEnds :
    rule.IgnoresLineEnds id := by
  have hProduction :=
    symbol_ignoresLineEnds.atLeast symbol_reads.consumes 1
  rw [rule_eq_afterBlanks]
  exact ((((Row.ignoresLineEnds_nil.cons
    newline_ignoresLineEnds).cons hProduction).cons
      (word_ignoresLineEnds (by decide))).cons
        symbol_ignoresLineEnds).afterBlanks
          _ id (fun r => Rule.mk r.1 r.2.2.1) fun _ => rfl

------------------------------------------------------------
-- Grammars
------------------------------------------------------------

theorem configSection_ignoresLineEnds :
    configSection.IgnoresLineEnds id :=
  (settings_ignoresLineEnds.atLeast
    settings_reads.consumes 0).map "_to_config" _

theorem rulesSection_ignoresLineEnds :
    rulesSection.IgnoresLineEnds id :=
  (rule_ignoresLineEnds.atLeast rule_reads.consumes 1).map
    "from_rules" _

theorem grammar_ignoresLineEnds :
    grammar.IgnoresLineEnds id :=
  ((((((Row.ignoresLineEnds_nil.cons
    Parser.ignoresLineEnds_skipBlanks).cons
      rulesSection_ignoresLineEnds).cons
        (header_ignoresLineEnds (by decide))).cons
          configSection_ignoresLineEnds).cons
            (header_ignoresLineEnds (by decide))).sequence
              (fun r => LSystem.mk r.2.2.2.1 r.2.1)
              (fun r => LSystem.mk r.2.2.2.1 r.2.1)
              fun _ => rfl).complete

end Grammar

------------------------------------------------------------
-- Files
------------------------------------------------------------

namespace LSystem

/- The bytes of a text are read as this text. -/
theorem fromUTF8?_toUTF8
    (s : String) :
    String.fromUTF8? s.toUTF8 = some s := by
  rw [String.fromUTF8?, String.toUTF8_eq_toByteArray,
    dif_pos s.isValidUTF8]
  rfl

theorem parse_unifyNewlines
    (source : List Char) :
    parse (unifyNewlines source) = parse source := by
  rcases Grammar.grammar_ignoresLineEnds source with
    ⟨e, hRun, hRun'⟩ | ⟨l, _, rest, hRun, hRun', rfl⟩
  · rw [parse, parse, hRun, hRun']
  · rw [parse, parse, hRun, hRun']
    rfl

/-
  A file is read, with its line ends translated, as its text
  is parsed as it stands.
-/
theorem ofFile_toUTF8
    (path source : String) :
    ofFile path (.ok source.toUTF8) =
      (parse source.toList).mapError .failure := by
  rw [ofFile, ofBytes, fromUTF8?_toUTF8]
  simp only [parse_unifyNewlines]
  cases parse source.toList with
  | ok l => rfl
  | error f => rfl

/-
  A text and the text with its line ends translated are both
  parsed to one L-system or rejected by one parse error, and
  so is a file with this text.
-/
theorem parse_ignores_lineEnds
    (source : String) :
    parse (unifyNewlines source.toList) =
        parse source.toList ∧
      (∀ f, parse source.toList = .error f →
        ∃ e, f = .parse e) ∧
      ∀ path,
        ofFile path (.ok source.toUTF8) =
          (parse source.toList).mapError .failure := by
  refine ⟨parse_unifyNewlines source.toList, ?_,
    fun path => ofFile_toUTF8 path source⟩
  intro f hReject
  rcases Grammar.grammar_failsBy source.toList f
      ((parse_eq_error_iff _ f).mp hReject) with
    ⟨e, _, hParse⟩
  exact ⟨e, hParse⟩

end LSystem

end Lindenmayer
