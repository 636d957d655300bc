import Lindenmayer.Command.Exit
import Lindenmayer.Command.Flag
import Lindenmayer.Text.Digit

/-
  This file defines the words of a command line.

  A word is a flag by its letter or by the beginning of its
  name, unless two names begin like that.  More may follow a
  letter at once, and a letter or a name after an equals
  sign.  Other words with a dash in front are unknown flags,
  but negative numbers, a lone dash and words with a space
  are arguments.  Two dashes alone are the terminator, after
  which all words are arguments.

  Key definitions include:
    * `Command.Token`
    * `Command.Token.ofWord`
    * `Command.tokens`
-/

namespace Lindenmayer

namespace Command

------------------------------------------------------------
-- Tokens
------------------------------------------------------------

/-
  What is written to a flag in the same word: nothing, a text
  after its name, or a text after its letter.
-/
inductive Attached where
  | nothing
  | toName (text : String)
  | toLetter (text : String)
deriving DecidableEq, Repr

/- The kinds of words. -/
inductive Token where
  | argument (s : String)
  | terminator
  | flag (f : Flag) (a : Attached)
  | unknown
deriving DecidableEq, Repr

/- The word that is the terminator. -/
def terminator : String :=
  "--"

------------------------------------------------------------
-- Negative Numbers
------------------------------------------------------------

/- Whether a text is one or more decimal digits. -/
def isDigits
    (cs : List Char) : Bool :=
  !cs.isEmpty && cs.all fun c => (Text.digitValue? c).isSome

/- Remove a line feed at the end. -/
def dropFinalNewline
    (cs : List Char) : List Char :=
  if cs.getLast? = some '\n' then cs.dropLast else cs

/-
  Whether a word, after its dash, is a number: digits, or a
  point before digits and perhaps after some.  A line feed
  may end it.
-/
def isNumber
    (cs : List Char) : Bool :=
  let ds := dropFinalNewline cs
  let whole := ds.takeWhile (· != '.')
  match ds.dropWhile (· != '.') with
  | [] => isDigits whole
  | _ :: places =>
      (whole.isEmpty || isDigits whole) && isDigits places

------------------------------------------------------------
-- Words
------------------------------------------------------------

namespace Token

/- A word with a dash in front that is no flag. -/
def ofOther
    (s : String) : Token :=
  if isNumber (s.toList.drop 1) || s.toList.contains ' ' then
    .argument s
  else .unknown

/- A word with two dashes in front. -/
def ofName
    (flags : List Flag)
    (s : String)
    (cs : List Char) : Except Exit Token :=
  let attached :=
    match cs.dropWhile (· != '=') with
    | [] => .nothing
    | _ :: value => .toName (String.ofList value)
  match
    Flag.abbreviated flags (cs.takeWhile (· != '='))
  with
  | [] => .ok (ofOther s)
  | [f] => .ok (.flag f attached)
  | _ => .error .usage

/- A word with one dash in front. -/
def ofLetters
    (flags : List Flag)
    (s : String)
    (c : Char)
    (cs : List Char) : Token :=
  match Flag.ofLetter? flags c, cs with
  | none, _ => ofOther s
  | some f, [] => .flag f .nothing
  | some f, '=' :: text =>
      .flag f (.toLetter (String.ofList text))
  | some f, text =>
      .flag f (.toLetter (String.ofList text))

/- The token of a word, some flags being known. -/
def ofWord
    (flags : List Flag)
    (s : String) : Except Exit Token :=
  match s.toList with
  | ['-', '-'] => .ok .terminator
  | '-' :: '-' :: cs => ofName flags s cs
  | '-' :: c :: cs => .ok (ofLetters flags s c cs)
  | _ => .ok (.argument s)

end Token

------------------------------------------------------------
-- Command Lines
------------------------------------------------------------

/- The tokens of a command line, some flags being known. -/
def tokens
    (flags : List Flag) :
    List String → Except Exit (List Token)
  | [] => .ok []
  | s :: rest =>
      match Token.ofWord flags s with
      | .error e => .error e
      | .ok .terminator =>
          .ok (.terminator :: rest.map .argument)
      | .ok t =>
          match tokens flags rest with
          | .error e => .error e
          | .ok ts => .ok (t :: ts)

end Command

end Lindenmayer
