import Lindenmayer.Error

/-
  This file defines the ways in which a parser fails.

  Only parse errors are recovered from.  The other failures
  come from the functions applied to parsed values, and from
  a repetition that would never end.

  Key definitions include:
    * `Failure`
    * `Failure.message`
    * `Failure.isRecoverable`
    * `Failure.rejection`
-/

namespace Lindenmayer

------------------------------------------------------------
-- Failures
------------------------------------------------------------

/-
  A parse error; a configuration error; a value outside the
  domain of a function; a missing key; or a repetition of a
  parser that succeeds without consuming anything.
-/
inductive Failure where
  | parse (e : ParseError)
  | config (e : ConfigError)
  | value (message : String)
  | key (name : String)
  | endless
deriving DecidableEq, Repr

namespace Failure

/- The wording of a failure. -/
def message : Failure → String
  | .parse e => e.message
  | .config e => e.message
  | .value m => m
  | .key name => Text.quote name
  | .endless => "the repetition never ends"

/- Whether alternatives are tried after a failure. -/
def isRecoverable : Failure → Bool
  | .parse _ => true
  | _ => false

/-
  The failure of a parser whose value a function rejects: a
  value or configuration error becomes a custom parse error
  with the same message, and all else stays.
-/
def rejection : Failure → Failure
  | .value m => .parse (.custom m)
  | .config e => .parse (.custom e.message)
  | f => f

end Failure

end Lindenmayer
