import Lindenmayer.Parser.Basic

/-
  This file defines rows of parsers, which run one after the
  other, and the two kinds of sequence made from a row.

  Key definitions include:
    * `Row`
    * `Row.cons`
    * `Row.ofList`
    * `Row.sequence`
    * `Row.spaced`
-/

namespace Lindenmayer

------------------------------------------------------------
-- Rows
------------------------------------------------------------

/-
  Parsers in a row.  A run is given the skip to make before
  each of them.
-/
structure Row (α : Type) where
  faces : List String
  run :
    (List Char → List Char) → List Char → Parsed α

namespace Row

variable {α β γ : Type}

/- The row without parsers. -/
def nil : Row Unit where
  faces := []
  run _ text := .ok ((), text)

/- A parser followed by a row. -/
def cons
    (p : Parser α)
    (r : Row β) : Row (α × β) where
  faces := p.face :: r.faces
  run skip text :=
    match p.run (skip text) with
    | .error e => .error e
    | .ok (a, rest) =>
        match r.run skip rest with
        | .error e => .error e
        | .ok (b, rest') => .ok ((a, b), rest')

/- The same row with its values seen as another value. -/
def seenAs
    (r : Row α)
    (f : α → β) : Row β where
  faces := r.faces
  run skip text :=
    match r.run skip text with
    | .error e => .error e
    | .ok (a, rest) => .ok (f a, rest)

/- The row of a list of parsers of one kind. -/
def ofList : List (Parser α) → Row (List α)
  | [] => nil.seenAs fun _ => []
  | p :: ps =>
      (cons p (ofList ps)).seenAs fun r => r.1 :: r.2

------------------------------------------------------------
-- Sequences
------------------------------------------------------------

/-
  Run a row and build a value from its values.
-/
def sequence
    (r : Row α)
    (build : α → Except Failure β) : Parser β where
  face := "(" ++ " ".intercalate r.faces ++ ")"
  run text :=
    match r.run id text with
    | .error e => .error e
    | .ok (a, rest) =>
        match build a with
        | .error e => .error e
        | .ok b => .ok (b, rest)

/- Skip the spaces and tabs a text begins with. -/
def skipGap
    (text : List Char) : List Char :=
  text.dropWhile Text.isGap

/-
  Run a row whose parsers may be preceded, and the last one
  followed, by spaces and tabs.
-/
def spaced
    (r : Row α)
    (build : α → Except Failure β) : Parser β where
  face := "(" ++ " _ ".intercalate r.faces ++ ")"
  run text :=
    match r.run skipGap text with
    | .error e => .error e
    | .ok (a, rest) =>
        match build a with
        | .error e => .error e
        | .ok b => .ok (b, skipGap rest)

end Row

end Lindenmayer
