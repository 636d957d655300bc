import Lindenmayer.Text.Quoted

/-
  This file defines the causes of refusal and their wording.

  Key definitions include:
    * `ParseError`
    * `ParseError.message`
    * `ConfigError`
    * `ConfigError.message`
-/

namespace Lindenmayer

------------------------------------------------------------
-- Parse Errors
------------------------------------------------------------

/-
  The closed set of causes for which a text is no grammar.
  Two of them are equal when they are the same cause with the
  same payload.
-/
inductive ParseError where
  | unreadableFile (path : String)
  | expectedCharacter (c : String)
  | expectedEnd
  | expectedText (s : String)
  | unexpectedCharacter
  | endOfInput
  | noAlternative
  | unspecified
  | custom (message : String)
deriving DecidableEq, Repr

namespace ParseError

/- The wording of a parse error. -/
def message : ParseError → String
  | .unreadableFile path =>
      "cannot read grammar file " ++ Text.quote path
  | .expectedCharacter c => "expected " ++ Text.quote c
  | .expectedEnd => "expected end of input"
  | .expectedText s => "expected " ++ Text.quote s
  | .unexpectedCharacter => "unexpected character"
  | .endOfInput => "unexpected end of input"
  | .noAlternative => "none of the alternatives matched"
  | .unspecified => "parse error"
  | .custom m => m

end ParseError

------------------------------------------------------------
-- Configuration Errors
------------------------------------------------------------

/-
  The causes for which an otherwise readable request is
  refused.
-/
inductive ConfigError where
  | notOneCharacter
  | negativeCount
  | noOption
  | emptySequence
  | emptySpacedSequence
  | emptyProduction (quotedSymbol : String)
  | depthBelowOne
  | emptySeed
  | negativeIterations
  | negativeRounds
  | stepNotPositive
  | stepFactorNotPositive
  | widthFactorNotPositive
  | nothingToPop
  | unknownInstruction (name : String)
  | nothingDrawn
  | degenerateBounds
  | negativeLimit
  | stated (message : String)
deriving DecidableEq, Repr

namespace ConfigError

/- The wording of a configuration error. -/
def message : ConfigError → String
  | .notOneCharacter =>
      "character() takes a single character"
  | .negativeCount => "at_least() needs n >= 0"
  | .noOption => "one_of() needs at least one option"
  | .emptySequence =>
      "sequence() needs at least one parser"
  | .emptySpacedSequence =>
      "spaced_sequence() needs at least one parser"
  | .emptyProduction q =>
      "production for " ++ q ++ " must not be empty"
  | .depthBelowOne => "max_depth must be >= 1"
  | .emptySeed => "axiom must be non-empty"
  | .negativeIterations => "iterations must be >= 0"
  | .negativeRounds => "n must be >= 0"
  | .stepNotPositive => "starting_step must be > 0"
  | .stepFactorNotPositive => "step_multiplier must be > 0"
  | .widthFactorNotPositive =>
      "line_width_multiplier must be > 0"
  | .nothingToPop => "pop encountered with empty stack"
  | .unknownInstruction name =>
      "Unknown instruction " ++ Text.quote name
  | .nothingDrawn => "No drawable geometry produced."
  | .degenerateBounds =>
      "Degenerate bounds after margin " ++
        "(width or height is zero). " ++
        "Use a margin > 0 to render collinear or " ++
        "single-point geometry."
  | .negativeLimit => "--limit must be >= 0"
  | .stated m => m

end ConfigError

end Lindenmayer
