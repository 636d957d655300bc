import Lindenmayer.Proofs.Grammar.Acceptance
import Lindenmayer.Proofs.Parser.Failing

/-
  By which parse errors the parts of a grammar fail.

  The functions in a grammar take every value that is read:
  each decimal is converted to a number, and each list of
  rules makes a store.  So the parts fail by the parse errors
  of what they are made of, and settings do not fail at all.

  Key definitions include:
    * `Grammar.headerErrors`
    * `Grammar.ruleErrors`
    * `Grammar.grammarErrors`

  Correctness is proven by:
    * `Grammar.decimal_failsBy`
    * `Grammar.configSection_failsBy`
    * `Grammar.header_failsBy`
    * `Grammar.rule_failsBy`
    * `Grammar.rulesSection_failsBy`
    * `Grammar.grammar_failsBy`
-/

------------------------------------------------------------
-- Lexical Parts
------------------------------------------------------------

namespace Lindenmayer

open Text (isBlank runsOf StartsOutside)

namespace Grammar

theorem newline_failsBy :
    newline.FailsBy [.noAlternative] := by
  apply Parser.FailsBy.oneOf
  rw [List.forall_mem_cons, List.forall_mem_cons,
    List.forall_mem_singleton]
  exact ⟨⟨_, Parser.failsBy_literal _⟩,
    ⟨_, Parser.failsBy_literal _⟩,
    ⟨_, Parser.failsBy_literal _⟩⟩

theorem digits_failsBy :
    (digit.atLeast 1).FailsBy
      [.endOfInput, .unexpectedCharacter] :=
  (Parser.failsBy_anyChar _ _).atLeast
    (Parser.consumes_anyChar _ _) 1

/- Every numeral that is recognized is converted. -/
theorem exists_float_of_run_numeral
    {text rest : List Char}
    {s : String}
    (hRun : numeral.recognize.run text = .ok (s, rest)) :
    ∃ x, Conversion.float s = .ok x := by
  rcases (run_numeral_iff text rest s).mp hRun with
    ⟨whole, fraction, hNotNil, _, _, hWhole, hFraction, rfl⟩
  have hDigits := Text.takeWhile_mem_runsOf isDigit
  refine ⟨_, (float_eq_ok_iff _ _).mpr
    (Numeral.float?_plain whole fraction ?_ ?_ hNotNil)⟩
  · exact isDigit_of_mem (hWhole ▸ hDigits text)
  · exact isDigit_of_mem
      (hFraction ▸ hDigits (fraction ++ rest))

/- So no decimal is rejected. -/
theorem decimal_failsBy :
    decimal.FailsBy
      [.endOfInput, .unexpectedCharacter,
        .expectedCharacter "."] := by
  have hRow :=
    ((Row.failsBy_nil.cons digits_failsBy).cons
      (Parser.failsBy_char '.')).cons digits_failsBy
  rw [decimal_eq_tryMap]
  refine ((hRow.sequence id).recognize.tryMap "float"
    fun _ _ _ => exists_float_of_run_numeral).mono ?_
  simp [Char.toString]

theorem text_failsBy :
    Grammar.text.FailsBy [.endOfInput, .unexpectedCharacter] :=
  ((Parser.failsBy_anyChar _ _).atLeast
    (Parser.consumes_anyChar _ _) 1).recognize.map "strip"
      fun _ _ _ _ => ⟨_, rfl⟩

theorem symbol_failsBy :
    symbol.FailsBy [.endOfInput, .unexpectedCharacter] :=
  (Row.failsBy_nil.cons (Parser.failsBy_anyChar _ _)).spaced
    Prod.fst

------------------------------------------------------------
-- Settings
------------------------------------------------------------

/- A line fails like its row, as skipping blanks succeeds. -/
theorem afterBlanks_failsBy
    {α γ δ : Type}
    {r : Row α}
    {es : List ParseError}
    (hFails : r.FailsBy es)
    (f : α → γ)
    (g : γ → δ) :
    (r.afterBlanks f g).FailsBy es := by
  have hLine :=
    ((Row.failsBy_nil.cons (hFails.spaced f)).cons
      Parser.failsBy_skipBlanks).sequence fun q => g q.2.1
  rw [List.nil_append, List.append_nil] at hLine
  exact hLine

theorem settingLine_failsBy
    {α : Type}
    {p : Parser α}
    {es : List ParseError}
    (key : String)
    (hValue : p.FailsBy es)
    (setting : α → Setting) :
    (settingLine key p setting).FailsBy
      (.expectedText key :: .expectedText "=" ::
        (es ++ [.noAlternative])) :=
  afterBlanks_failsBy
    ((((Row.failsBy_nil.cons newline_failsBy).cons
      hValue).cons (Parser.failsBy_literal "=")).cons
        (Parser.failsBy_literal key))
    (fun r => setting r.2.2.1) id

theorem settings_failsBy :
    (Parser.oneOf settingLines).FailsBy [.noAlternative] := by
  apply Parser.FailsBy.oneOf
  intro p hLine
  rcases (mem_settingLines_iff p).mp hLine with
    ⟨⟨k, _⟩ | ⟨k, _⟩, rfl⟩
  · exact ⟨_, settingLine_failsBy _ decimal_failsBy _⟩
  · exact ⟨_, settingLine_failsBy _ text_failsBy _⟩

/- There may be any number of settings. -/
theorem configSection_failsBy :
    configSection.FailsBy [] :=
  (settings_failsBy.many settings_reads.consumes).map
    "_to_config" fun _ _ _ _ => ⟨_, rfl⟩

------------------------------------------------------------
-- Headers
------------------------------------------------------------

/- The parse errors of a header. -/
def headerErrors
    (name : String) : List ParseError :=
  [.expectedText name, .expectedCharacter ":",
    .noAlternative]

theorem header_eq_afterBlanks
    (name : String) :
    header name =
      (Row.cons (.literal name)
        (.cons (.char ':') (.cons newline .nil))).afterBlanks
        id (fun _ => ()) :=
  rfl

theorem header_failsBy
    (name : String) :
    (header name).FailsBy (headerErrors name) :=
  afterBlanks_failsBy
    (((Row.failsBy_nil.cons newline_failsBy).cons
      (Parser.failsBy_char ':')).cons
        (Parser.failsBy_literal name))
    id (fun _ => ())

/- Where its name does not stand, a header fails by it. -/
theorem run_header_error
    {name : String}
    {text : List Char}
    (hName : ¬ name.toList <+: Text.trimLeft text) :
    (header name).run text =
      .error (.parse (.expectedText name)) := by
  rw [header_eq_afterBlanks]
  exact Row.run_afterBlanks_literal hName

------------------------------------------------------------
-- Rules
------------------------------------------------------------

/- The parse errors of the line of a rule. -/
def ruleErrors : List ParseError :=
  [.endOfInput, .unexpectedCharacter, .expectedText "=>",
    .noAlternative]

theorem rule_failsBy :
    rule.FailsBy ruleErrors := by
  have hProduction :=
    symbol_failsBy.atLeast symbol_reads.consumes 1
  rw [rule_eq_afterBlanks]
  refine (afterBlanks_failsBy
    ((((Row.failsBy_nil.cons newline_failsBy).cons
      hProduction).cons (Parser.failsBy_literal "=>")).cons
        symbol_failsBy) _ _).mono ?_
  simp [ruleErrors]

/- Every list of rules that is read makes a store. -/
theorem exists_storeOf_of_run
    {n : Nat}
    {text rest : List Char}
    {rules : List (Rule Char)}
    (hRun : (rule.atLeast n).run text = .ok (rules, rest)) :
    ∃ s, storeOf rules = .ok s := by
  rw [Parser.run_atLeast_iff _ rule_reads.consumes] at hRun
  rcases rule_reads.greedy_sound hRun.2
      (fun _ hNone => absurd hNone List.not_mem_nil) with
    ⟨t, hLines, _⟩
  have hStore : RuleStore.ofRules rules = .ok _ :=
    (RuleStore.ofRules_eq_ok_iff rules _).mpr
      ⟨LSystem.production_ne_nil_of_mem hLines, rfl⟩
  exact ⟨_, by rw [storeOf, hStore]⟩

theorem rulesSection_failsBy :
    rulesSection.FailsBy ruleErrors :=
  (rule_failsBy.atLeast rule_reads.consumes 1).map
    "from_rules" fun _ _ _ => exists_storeOf_of_run

/- The first rule decides whether a section of rules is read. -/
theorem run_rulesSection_ok_iff
    (text : List Char) :
    (∃ r, rulesSection.run text = .ok r) ↔
      ∃ r, rule.run text = .ok r := by
  constructor
  · rintro ⟨⟨s, rest⟩, hRun⟩
    rcases (run_rulesSection_iff text rest s).mp hRun with
      ⟨rules, hNotNil, hGreedy, _⟩
    cases rules with
    | nil => exact absurd rfl hNotNil
    | cons r rules =>
        rcases (Parser.greedy_cons_iff _ _ _ _ _).mp hGreedy
          with ⟨mid, hFirst, _⟩
        exact ⟨_, hFirst⟩
  · rintro ⟨⟨r, mid⟩, hFirst⟩
    rcases rule_failsBy.greedy_succeeds rule_reads.consumes mid
      with ⟨⟨rules, rest⟩, hLater⟩
    have hRules :
        (rule.atLeast 1).run text = .ok (r :: rules, rest) := by
      rw [Parser.run_atLeast_iff _ rule_reads.consumes,
        Parser.greedy_cons_iff]
      exact ⟨by simp, mid, hFirst,
        rule_reads.consumes text r mid hFirst, hLater⟩
    rcases exists_storeOf_of_run hRules with ⟨s, hStore⟩
    refine ⟨(s, rest), ?_⟩
    rw [rulesSection, Parser.run_map_iff]
    exact ⟨_, hRules, hStore⟩

------------------------------------------------------------
-- Grammars
------------------------------------------------------------

/- The parse errors of a grammar. -/
def grammarErrors : List ParseError :=
  headerErrors "render" ++ headerErrors "rules" ++
    ruleErrors ++ [.expectedEnd]

/- Every failure of a grammar is one of its parse errors. -/
theorem grammar_failsBy :
    grammar.FailsBy grammarErrors := by
  have hRow :=
    ((((Row.failsBy_nil.cons Parser.failsBy_skipBlanks).cons
      rulesSection_failsBy).cons (header_failsBy "rules")).cons
        configSection_failsBy).cons (header_failsBy "render")
  refine (hRow.sequence fun r =>
    LSystem.mk r.2.2.2.1 r.2.1).complete.mono ?_
  simp [grammarErrors]

end Grammar

end Lindenmayer
