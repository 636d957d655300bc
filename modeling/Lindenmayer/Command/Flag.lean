/-
  This file defines the verbs and the flags of the command
  line.

  Key definitions include:
    * `Command.Flag`
    * `Command.Verb`
    * `Command.Verb.flags`
-/

namespace Lindenmayer

namespace Command

------------------------------------------------------------
-- Flags
------------------------------------------------------------

/- The flags that may stand on a command line. -/
inductive Flag where
  | help
  | seed
  | depth
  | iterations
  | margin
  | limit
  | raw
deriving DecidableEq, Repr

namespace Flag

/- The name of a flag, which stands after two dashes. -/
def name : Flag → String
  | .help => "help"
  | .seed => "axiom"
  | .depth => "depth"
  | .iterations => "iterations"
  | .margin => "margin"
  | .limit => "limit"
  | .raw => "raw"

/- The letter of a flag, which stands after one dash. -/
def letter? : Flag → Option Char
  | .help => some 'h'
  | .seed => some 'a'
  | _ => none

/- Whether a value belongs to a flag. -/
def takesValue : Flag → Bool
  | .help => false
  | .raw => false
  | _ => true

/- The flag of a letter. -/
def ofLetter?
    (flags : List Flag)
    (c : Char) : Option Flag :=
  flags.find? fun f => f.letter? = some c

/-
  The flags whose names begin like a word.  As no name begins
  with another, a whole name has only its own flag.
-/
def abbreviated
    (flags : List Flag)
    (word : List Char) : List Flag :=
  flags.filter fun f => word.isPrefixOf f.name.toList

end Flag

------------------------------------------------------------
-- Verbs
------------------------------------------------------------

/- What is done with a grammar. -/
inductive Verb where
  | render
  | validate
  | expand
deriving DecidableEq, Repr

namespace Verb

/- All verbs. -/
def all : List Verb :=
  [.render, .validate, .expand]

/- The name of a verb. -/
def name : Verb → String
  | .render => "render"
  | .validate => "validate"
  | .expand => "expand"

/- The verb that has a name. -/
def named?
    (s : String) : Option Verb :=
  all.find? fun v => v.name = s

/- The flags that are known to a verb. -/
def flags : Verb → List Flag
  | .render =>
      [.help, .seed, .depth, .iterations, .margin]
  | .validate => [.help, .seed, .depth, .iterations]
  | .expand =>
      [.help, .seed, .depth, .iterations, .limit, .raw]

/- The number of paths that a verb is given. -/
def paths : Verb → Nat
  | .render => 2
  | .validate => 1
  | .expand => 1

end Verb

end Command

end Lindenmayer
