import Lindenmayer.Proofs.Grammar.Failures
import Lindenmayer.Proofs.Parser.Repetition

/-
  The reading of a grammar ends.

  A repetition has no guard of its own against matches that
  consume nothing.  All that a grammar repeats consumes with
  each match, be it a character or a line with blanks before
  it, so that no text is read for ever.

  Correctness is proven by:
    * `Grammar.repetitions_end`
-/

namespace Lindenmayer

namespace Grammar

/- Reading a grammar fails by parse errors alone. -/
theorem parse_ne_endless
    (source : List Char) :
    LSystem.parse source ≠ .error .endless := by
  intro hEndless
  rw [LSystem.parse_eq_error_iff] at hEndless
  rcases grammar_failsBy source _ hEndless with
    ⟨e, _, hSame⟩
  cases hSame

/-
  Every text is read to an end, as a grammar or not.  A parser
  all of whose matches consume stops after no more matches
  than the text has characters, and any repetition of it ends
  there.  All parsers that a grammar repeats are such, and the
  failure that ends them is a parse error: the digits of a
  decimal, the characters of a text, the symbols of a
  production, the settings and the rules.
-/
theorem repetitions_end :
    (∀ source, LSystem.parse source ≠ .error .endless) ∧
    (∀ (α : Type) (p : Parser α), p.Consumes →
      ∀ n text, ∃ as rest f, p.Stops text as rest f ∧
        as.length ≤ text.length ∧
        (p.atLeast n).run text =
          Parser.ending n as rest f) ∧
    digit.Repeatable ∧
    (Parser.anyChar isText "<text>").Repeatable ∧
    symbol.Repeatable ∧
    (Parser.oneOf settingLines).Repeatable ∧
    rule.Repeatable := by
  refine ⟨parse_ne_endless,
    fun α p hConsumes => hConsumes.run_atLeast,
    ?_, ?_, ?_, ?_, ?_⟩
  · exact (Parser.failsBy_anyChar _ _).repeatable
      (Parser.consumes_anyChar _ _)
  · exact (Parser.failsBy_anyChar _ _).repeatable
      (Parser.consumes_anyChar _ _)
  · exact symbol_failsBy.repeatable symbol_reads.consumes
  · exact settings_failsBy.repeatable settings_reads.consumes
  · exact rule_failsBy.repeatable rule_reads.consumes

/-
  The symbols in front of a line end, of which there
  are no more than characters.
-/
theorem repetitions_end_symbols :
    symbol.Consumes ∧
      ∃ as rest f,
        symbol.Stops ['F', ' ', '[', '+', '\n'] as rest f ∧
        as.length ≤ 5 ∧
        (symbol.atLeast 1).run ['F', ' ', '[', '+', '\n'] =
          Parser.ending 1 as rest f := by
  rcases repetitions_end with
    ⟨_, hRepetition, _, _, hSymbol, _, _⟩
  exact ⟨hSymbol.consumes,
    hRepetition Char symbol hSymbol.consumes 1
      ['F', ' ', '[', '+', '\n']⟩

end Grammar

end Lindenmayer
