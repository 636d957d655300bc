import Lindenmayer.Command.Blank
import Lindenmayer.Play

/-
  This file defines commands, and the request that a command
  line stands for.

  Flags and paths may stand in any order.  A word that is one
  too many does not stop the reading: a later flag may still
  ask for help.

  The meaning of two dashes is that of a reader of command
  lines which takes them away wherever they stand, from the
  value of a flag as well.  This is an assumption, on which
  only command lines with blank values depend.

  Key definitions include:
    * `Command`
    * `Command.Request`
    * `Command.Draft`
    * `Command.ofWords`
-/

namespace Lindenmayer

------------------------------------------------------------
-- Commands
------------------------------------------------------------

/- What all commands are told. -/
structure Subject where
  grammar : String
  seed : String
  bound : Bound
deriving DecidableEq, Repr

/-
  A command draws the unfolding of a grammar to a file with a
  margin, gives an account of the grammar, or prints as many
  items of the unfolding as a limit allows.
-/
inductive Command where
  | render
      (s : Subject)
      (output : String)
      (margin : Float)
  | validate (s : Subject)
  | expand
      (s : Subject)
      (limit : Option Int)
      (raw : Bool)
deriving DecidableEq, Repr

namespace Command

/- What a command is told like all others. -/
def subject : Command → Subject
  | .render s _ _ => s
  | .validate s => s
  | .expand s _ _ => s

/- A command, and which of its values are blank. -/
structure Request where
  command : Command
  blanks : List Blank := []
deriving DecidableEq, Repr

------------------------------------------------------------
-- Drafts
------------------------------------------------------------

/-
  What is known of a command while its words are read: the
  paths so far, whether there was a word too many, the values
  of flags, and which values are blank.
-/
structure Draft where
  paths : List String := []
  excess : Bool := false
  seed : String := "F"
  depth : Option Int := none
  iterations : Option Int := none
  margin : Float := 10.0
  limit : Option Int := none
  raw : Bool := false
  blanks : List Blank := []
deriving DecidableEq, Repr

namespace Draft

/- The depth of an unfolding without a bound. -/
def standardDepth : Int :=
  6

/- The draft with a path, if there is room for one more. -/
def addPath
    (room : Nat)
    (d : Draft)
    (s : String) : Draft :=
  if d.paths.length < room then
    { d with paths := d.paths ++ [s] }
  else { d with excess := true }

/- The draft with a blank path for the output. -/
def addBlankPath
    (room : Nat)
    (d : Draft) : Draft :=
  { d.addPath room "" with blanks := .output :: d.blanks }

/- The draft with a note whether a value is blank. -/
def note
    (d : Draft)
    (b : Blank)
    (s : String) : Draft :=
  let others := d.blanks.filter (· ≠ b)
  { d with
    blanks := if isBlankValue s then b :: others else others }

/-
  The draft with the value of a flag.  A value must be a
  number where one is needed, and there may be no two kinds
  of bounds.
-/
def setValue
    (d : Draft)
    (f : Flag)
    (s : String) : Except Exit Draft :=
  match f with
  | .seed => .ok { d with seed := wordOf s }
  | .depth =>
      match integerOf? s, d.iterations with
      | some n, none =>
          .ok { d.note .depth s with depth := some n }
      | _, _ => .error .usage
  | .iterations =>
      match integerOf? s, d.depth with
      | some n, none =>
          .ok { d.note .iterations s with iterations := some n }
      | _, _ => .error .usage
  | .margin =>
      match floatOf? s with
      | some x => .ok { d.note .margin s with margin := x }
      | none => .error .usage
  | .limit =>
      match integerOf? s with
      | some n => .ok { d.note .limit s with limit := some n }
      | none => .error .usage
  | .help => .error .usage
  | .raw => .error .usage

/- The bound that is asked for. -/
def bound
    (d : Draft) : Bound :=
  match d.iterations with
  | some n => .iterations n
  | none => .depth (d.depth.getD standardDepth)

/- The command of a complete draft. -/
def command
    (d : Draft)
    (v : Verb) : Except Exit Command :=
  match d.excess, v, d.paths with
  | false, .render, [grammar, output] =>
      .ok
        (.render ⟨grammar, d.seed, d.bound⟩ output d.margin)
  | false, .validate, [grammar] =>
      .ok (.validate ⟨grammar, d.seed, d.bound⟩)
  | false, .expand, [grammar] =>
      .ok
        (.expand ⟨grammar, d.seed, d.bound⟩ d.limit d.raw)
  | _, _, _ => .error .usage

/- The request of a complete draft. -/
def request
    (d : Draft)
    (v : Verb) : Except Exit Request :=
  match d.command v with
  | .ok c => .ok ⟨c, d.blanks⟩
  | .error e => .error e

end Draft

------------------------------------------------------------
-- Flags
------------------------------------------------------------

/-
  How letters end the program that stand after the letter for
  help.  All of them must be flags.  The first that takes a
  value has it in the same word or, as the next word is an
  argument, there.
-/
def helpWith
    (flags : List Flag)
    (valueFollows : Bool) : List Char → Exit
  | [] => .help
  | c :: cs =>
      match Flag.ofLetter? flags c with
      | none => .usage
      | some f =>
          if f.takesValue then
            if cs.isEmpty && !valueFollows then .usage
            else .help
          else helpWith flags valueFollows cs

/-
  How a flag for help ends the program.  Its name takes no
  text, and its letter takes letters.
-/
def helpExit
    (flags : List Flag)
    (valueFollows : Bool) : Attached → Exit
  | .nothing => .help
  | .toName _ => .usage
  | .toLetter s =>
      if s.isEmpty then .usage
      else helpWith flags valueFollows s.toList

/- Whether the next token is an argument. -/
def startsWithArgument : List Token → Bool
  | .argument _ :: _ => true
  | _ => false

------------------------------------------------------------
-- Reading
------------------------------------------------------------

/-
  Read the words after a verb.  The terminator must stand
  beside a path; a second one, next to a path, is blank.
-/
def readTokens
    (v : Verb)
    (d : Draft)
    (afterPath : Bool) : List Token → Except Exit Draft
  | [] => .ok d
  | .argument s :: ts =>
      let d' :=
        if afterPath && isBlankValue s then
          d.addBlankPath v.paths
        else d.addPath v.paths s
      readTokens v d' true ts
  | .terminator :: ts =>
      let beforePath :=
        startsWithArgument ts &&
          decide (d.paths.length < v.paths)
      let d' :=
        if afterPath || beforePath then d
        else { d with excess := true }
      readTokens v d' afterPath ts
  | .unknown :: ts =>
      readTokens v { d with excess := true } false ts
  | .flag .help a :: ts =>
      .error (helpExit v.flags (startsWithArgument ts) a)
  | .flag .raw .nothing :: ts =>
      readTokens v { d with raw := true } false ts
  | .flag f .nothing :: .argument s :: ts =>
      match d.setValue f s with
      | .error e => .error e
      | .ok d' => readTokens v d' false ts
  | .flag _ .nothing :: _ => .error .usage
  | .flag f (.toName s) :: ts =>
      match d.setValue f s with
      | .error e => .error e
      | .ok d' => readTokens v d' false ts
  | .flag f (.toLetter s) :: ts =>
      match d.setValue f s with
      | .error e => .error e
      | .ok d' => readTokens v d' false ts

/- The request of the words after a verb. -/
def ofVerb
    (v : Verb)
    (words : List String) : Except Exit Request :=
  match tokens v.flags words with
  | .error e => .error e
  | .ok ts =>
      match readTokens v {} false ts with
      | .error e => .error e
      | .ok d => d.request v

/-
  The request of a command line.  Only the flag for help may
  stand before the verb; other flags there are too many.
-/
def ofWordsAfter
    (excess : Bool) : List String → Except Exit Request
  | [] => .error .usage
  | s :: rest =>
      match Token.ofWord [.help] s with
      | .error e => .error e
      | .ok .terminator => .error .usage
      | .ok .unknown => ofWordsAfter true rest
      | .ok (.flag _ a) =>
          .error (helpExit [.help] false a)
      | .ok (.argument name) =>
          match Verb.named? name with
          | none => .error .usage
          | some v =>
              match ofVerb v rest with
              | .error e => .error e
              | .ok r => if excess then .error .usage else .ok r

/- The request of a command line. -/
def ofWords
    (words : List String) : Except Exit Request :=
  ofWordsAfter false words

end Command

end Lindenmayer
