import Lindenmayer.Parser.Row

/-
  This file defines parser expressions: parsers described by
  data, built by nesting the combinators.

  Key definitions include:
    * `Value`
    * `Expression`
    * `Expression.parser`
-/

namespace Lindenmayer

------------------------------------------------------------
-- Values
------------------------------------------------------------

/-
  The values of parser expressions: texts, nothing, lists,
  tuples, and values of a further kind.
-/
inductive Value (β : Type) where
  | text (s : String)
  | nothing
  | list (vs : List (Value β))
  | tuple (vs : List (Value β))
  | leaf (b : β)

------------------------------------------------------------
-- Expressions
------------------------------------------------------------

/-
  A parser expression over values with leaves in `β`.  The
  functions in it have a name to show; they and the
  predicates may fail.
-/
inductive Expression (β : Type) where
  | char (c : Char)
  | anyChar
      (asks : Char → Except Failure Bool)
      (face : String)
  | literal (s : String)
  | finish
  | skipGaps
  | skipBlanks
  | given (p : Parser (Value β))
  | optional (p : Expression β)
  | atLeast (n : Nat) (p : Expression β)
  | map
      (p : Expression β)
      (name : String)
      (f : Value β → Except Failure (Value β))
  | tryMap
      (p : Expression β)
      (name : String)
      (f : Value β → Except Failure (Value β))
  | recognize (p : Expression β)
  | oneOf (ps : List (Expression β))
  | sequence
      (ps : List (Expression β))
      (build : List (Value β) → Except Failure (Value β))
  | spaced
      (ps : List (Expression β))
      (build : List (Value β) → Except Failure (Value β))
  | complete (p : Expression β)

namespace Expression

variable {β : Type}

/- Without a function a sequence yields a tuple. -/
def tupled
    (vs : List (Value β)) : Except Failure (Value β) :=
  .ok (.tuple vs)

------------------------------------------------------------
-- Checked Expressions
------------------------------------------------------------

/- The expression for the only character of a text. -/
def char?
    (s : String) : Except ConfigError (Expression β) :=
  match s.toList with
  | [c] => .ok (.char c)
  | _ => .error .notOneCharacter

/-
  The expression for a character that a predicate holds of.
  Without a face of its own it shows the predicate's name.
-/
def anyCharNamed
    (holds : Char → Bool)
    (name : String)
    (face : String) : Expression β :=
  .anyChar (fun c => .ok (holds c))
    (if face.isEmpty then "<" ++ name ++ ">" else face)

/- A repetition whose least number is not below zero. -/
def atLeast?
    (n : Int)
    (p : Expression β) : Except ConfigError (Expression β) :=
  if n < 0 then .error .negativeCount
  else .ok (.atLeast n.toNat p)

/- An alternative of at least one expression. -/
def oneOf?
    (ps : List (Expression β)) :
    Except ConfigError (Expression β) :=
  if ps.isEmpty then .error .noOption else .ok (.oneOf ps)

/- A sequence of at least one expression. -/
def sequence?
    (ps : List (Expression β))
    (build : List (Value β) → Except Failure (Value β)) :
    Except ConfigError (Expression β) :=
  if ps.isEmpty then .error .emptySequence
  else .ok (.sequence ps build)

/- A spaced sequence of at least one expression. -/
def spaced?
    (ps : List (Expression β))
    (build : List (Value β) → Except Failure (Value β)) :
    Except ConfigError (Expression β) :=
  if ps.isEmpty then .error .emptySpacedSequence
  else .ok (.spaced ps build)

------------------------------------------------------------
-- Parsers of Expressions
------------------------------------------------------------

/- The value of an option. -/
def ofOption : Option (Value β) → Value β
  | some v => v
  | none => .nothing

mutual

/- The parser that an expression describes. -/
def parser : Expression β → Parser (Value β)
  | .char c =>
      (Parser.char c).seenAs fun d => .text d.toString
  | .anyChar asks face =>
      (Parser.askChar asks face).seenAs
        fun d => .text d.toString
  | .literal s => (Parser.literal s).seenAs .text
  | .finish => Parser.finish.seenAs fun _ => .nothing
  | .skipGaps => Parser.skipGaps.seenAs fun _ => .nothing
  | .skipBlanks =>
      Parser.skipBlanks.seenAs fun _ => .nothing
  | .given p => p
  | .optional p => p.parser.optional.seenAs ofOption
  | .atLeast n p => (p.parser.atLeast n).seenAs .list
  | .map p name f => p.parser.map name f
  | .tryMap p name f => p.parser.tryMap name f
  | .recognize p => p.parser.recognize.seenAs .text
  | .oneOf ps => .oneOf (parsers ps)
  | .sequence ps build =>
      (Row.ofList (parsers ps)).sequence build
  | .spaced ps build =>
      (Row.ofList (parsers ps)).spaced build
  | .complete p => p.parser.complete

/- The parsers that some expressions describe. -/
def parsers : List (Expression β) → List (Parser (Value β))
  | [] => []
  | p :: ps => p.parser :: parsers ps

end

end Expression

end Lindenmayer
