import Lindenmayer.Parser.Failure
import Lindenmayer.Text.Blank

/-
  This file defines parsers, their primitives and the ways of
  combining one or several parsers of a kind.

  A parser takes the remaining text and gives a value and the
  text after it, or fails.  Its face shows the grammar it was
  built from.

  Key definitions include:
    * `Parser`
    * `Parser.char`
    * `Parser.anyChar`
    * `Parser.askChar`
    * `Parser.literal`
    * `Parser.optional`
    * `Parser.atLeast`
    * `Parser.map`
    * `Parser.tryMap`
    * `Parser.recognize`
    * `Parser.oneOf`
    * `Parser.complete`
-/

namespace Lindenmayer

------------------------------------------------------------
-- Parsers
------------------------------------------------------------

/- What a run gives: a value with the text after it. -/
abbrev Parsed (α : Type) :=
  Except Failure (α × List Char)

/- A parsing function with a readable face. -/
structure Parser (α : Type) where
  face : String
  run : List Char → Parsed α

namespace Parser

variable {α β : Type}

/-
  The same parser with its value seen as another; the face
  stays.
-/
def seenAs
    (p : Parser α)
    (f : α → β) : Parser β where
  face := p.face
  run text :=
    match p.run text with
    | .error e => .error e
    | .ok (a, rest) => .ok (f a, rest)

------------------------------------------------------------
-- Primitives
------------------------------------------------------------

/- Match exactly one character. -/
def char
    (c : Char) : Parser Char where
  face := Text.quote c.toString
  run
    | d :: rest =>
        if d = c then .ok (c, rest)
        else .error (.parse (.expectedCharacter c.toString))
    | [] => .error (.parse (.expectedCharacter c.toString))

/- Match one character that a predicate holds of. -/
def anyChar
    (holds : Char → Bool)
    (face : String) : Parser Char where
  face := face
  run
    | [] => .error (.parse .endOfInput)
    | c :: rest =>
        if holds c then .ok (c, rest)
        else .error (.parse .unexpectedCharacter)

/-
  Match one character that a predicate holds of, when asking
  the predicate may fail; its failures stay.
-/
def askChar
    (asks : Char → Except Failure Bool)
    (face : String) : Parser Char where
  face := face
  run
    | [] => .error (.parse .endOfInput)
    | c :: rest =>
        match asks c with
        | .error f => .error f
        | .ok true => .ok (c, rest)
        | .ok false => .error (.parse .unexpectedCharacter)

/- Match exactly one text. -/
def literal
    (s : String) : Parser String where
  face := Text.quote s
  run text :=
    match s.toList.isPrefixOf? text with
    | some rest => .ok (s, rest)
    | none => .error (.parse (.expectedText s))

/- Match the end of the text. -/
def finish : Parser Unit where
  face := "$"
  run
    | [] => .ok ((), [])
    | _ :: _ => .error (.parse .expectedEnd)

/- Skip spaces and tabs; always succeeds. -/
def skipGaps : Parser Unit where
  face := "_"
  run text := .ok ((), text.dropWhile Text.isGap)

/- Skip blanks of every kind; always succeeds. -/
def skipBlanks : Parser Unit where
  face := "__"
  run text := .ok ((), Text.trimLeft text)

------------------------------------------------------------
-- Options and Alternatives
------------------------------------------------------------

/- Match a parser or nothing. -/
def optional
    (p : Parser α) : Parser (Option α) where
  face := "(" ++ p.face ++ ")?"
  run text :=
    match p.run text with
    | .ok (a, rest) => .ok (some a, rest)
    | .error (.parse _) => .ok (none, text)
    | .error f => .error f

/- The first of some parsers that matches a text. -/
def firstMatch
    (text : List Char) : List (Parser α) → Parsed α
  | [] => .error (.parse .noAlternative)
  | p :: ps =>
      match p.run text with
      | .ok r => .ok r
      | .error (.parse _) => firstMatch text ps
      | .error f => .error f

/- Match the first of some parsers that succeeds. -/
def oneOf
    (ps : List (Parser α)) : Parser α where
  face :=
    "(" ++ " | ".intercalate (ps.map Parser.face) ++ ")"
  run text := firstMatch text ps

------------------------------------------------------------
-- Repetition
------------------------------------------------------------

/- Run a parser exactly `n` times. -/
def times
    (p : Parser α)
    (n : Nat)
    (text : List Char) : Parsed (List α) :=
  match n with
  | 0 => .ok ([], text)
  | n + 1 =>
      match p.run text with
      | .error f => .error f
      | .ok (a, rest) =>
          match times p n rest with
          | .error f => .error f
          | .ok (as, rest') => .ok (a :: as, rest')

/-
  Run a parser as often as it matches.  The parse error that
  ends the run is dropped and its text is not consumed.  A
  match that consumes nothing would be repeated for ever.
-/
def greedy
    (p : Parser α)
    (text : List Char) : Parsed (List α) :=
  match p.run text with
  | .error (.parse _) => .ok ([], text)
  | .error f => .error f
  | .ok (a, rest) =>
      if rest.length < text.length then
        match greedy p rest with
        | .error f => .error f
        | .ok (as, rest') => .ok (a :: as, rest')
      else .error .endless
termination_by text.length

/-
  The face of a parser repeated at least `n` times; the
  braces stand around the least number.
-/
def repeatedFace
    (n : Nat)
    (face : String) : String :=
  if n = 0 then "(" ++ face ++ ")*"
  else "(" ++ face ++ ")\x7b" ++ toString n ++ ",\x7d"

/- Match a parser at least `n` times, then greedily. -/
def atLeast
    (n : Nat)
    (p : Parser α) : Parser (List α) where
  face := repeatedFace n p.face
  run text :=
    match times p n text with
    | .error f => .error f
    | .ok (as, rest) =>
        match greedy p rest with
        | .error f => .error f
        | .ok (bs, rest') => .ok (as ++ bs, rest')

/- Match a parser any number of times. -/
def many
    (p : Parser α) : Parser (List α) :=
  atLeast 0 p

------------------------------------------------------------
-- Functions of Values
------------------------------------------------------------

/- Apply a function to the value; its failures stay. -/
def map
    (p : Parser α)
    (name : String)
    (f : α → Except Failure β) : Parser β where
  face := "(" ++ p.face ++ " >> " ++ name ++ ")"
  run text :=
    match p.run text with
    | .error e => .error e
    | .ok (a, rest) =>
        match f a with
        | .error e => .error e
        | .ok b => .ok (b, rest)

/-
  Apply a function that may reject the value; a rejection is
  a parse error.
-/
def tryMap
    (p : Parser α)
    (name : String)
    (f : α → Except Failure β) : Parser β where
  face := "(" ++ p.face ++ " ?> " ++ name ++ ")"
  run text :=
    match p.run text with
    | .error e => .error e
    | .ok (a, rest) =>
        match f a with
        | .error e => .error e.rejection
        | .ok b => .ok (b, rest)

/- Match a parser and yield the text it consumed. -/
def recognize
    (p : Parser α) : Parser String where
  face := "<" ++ p.face ++ ">"
  run text :=
    match p.run text with
    | .error e => .error e
    | .ok (_, rest) =>
        .ok
          (String.ofList
            (text.take (text.length - rest.length)),
            rest)

/- Match a parser that consumes the whole text. -/
def complete
    (p : Parser α) : Parser α where
  face := p.face ++ " $"
  run text :=
    match p.run text with
    | .error e => .error e
    | .ok (a, rest) =>
        match finish.run rest with
        | .error e => .error e
        | .ok (_, rest') => .ok (a, rest')

end Parser

end Lindenmayer
