/-
  This file defines markup: tags with attributes, texts, and
  the way they are written.

  Key definitions include:
    * `Markup.escape`
    * `Markup.Piece`
    * `Markup.Piece.write`
    * `Markup.Line`
    * `Markup.document`
-/

namespace Lindenmayer

namespace Markup

------------------------------------------------------------
-- Escaping
------------------------------------------------------------

/- Replace a character by a text wherever it stands. -/
def replace
    (c : Char)
    (r : String)
    (cs : List Char) : List Char :=
  cs.flatMap fun d => if d = c then r.toList else [d]

/-
  Escape the characters that have a meaning in markup.  The
  ampersand comes first, as the entities begin with it.
-/
def escapeChars
    (cs : List Char) : List Char :=
  replace '"' "&quot;"
    (replace '>' "&gt;"
      (replace '<' "&lt;" (replace '&' "&amp;" cs)))

/- A text as it is written in markup. -/
def escape
    (s : String) : String :=
  String.ofList (escapeChars s.toList)

------------------------------------------------------------
-- Pieces
------------------------------------------------------------

/- An attribute has a name and a value. -/
structure Attribute where
  name : String
  value : String
deriving DecidableEq, Repr

namespace Attribute

/- An attribute as it is written in a tag. -/
def write
    (a : Attribute) : String :=
  " " ++ a.name ++ "=\"" ++ escape a.value ++ "\""

/- Some attributes as they are written in a tag. -/
def writeAll
    (as : List Attribute) : String :=
  String.join (as.map write)

end Attribute

/-
  The pieces of markup: the declaration, the tag that opens
  an element, that of an element without content, the tag
  that closes an element, and text.
-/
inductive Piece where
  | declaration (as : List Attribute)
  | opening (name : String) (as : List Attribute)
  | alone (name : String) (as : List Attribute)
  | closing (name : String)
  | text (s : String)
deriving DecidableEq, Repr

namespace Piece

/- A piece as it is written. -/
def write : Piece → String
  | .declaration as =>
      "<?xml" ++ Attribute.writeAll as ++ "?>"
  | .opening name as =>
      "<" ++ name ++ Attribute.writeAll as ++ ">"
  | .alone name as =>
      "<" ++ name ++ Attribute.writeAll as ++ " />"
  | .closing name => "</" ++ name ++ ">"
  | .text s => escape s

end Piece

------------------------------------------------------------
-- Documents
------------------------------------------------------------

/- A line of pieces, so many spaces from the left. -/
structure Line where
  indent : Nat
  pieces : List Piece
deriving DecidableEq, Repr

namespace Line

/- A line as it is written, with its line end. -/
def write
    (l : Line) : String :=
  String.ofList (List.replicate l.indent ' ') ++
    String.join (l.pieces.map Piece.write) ++ "\n"

end Line

/- A document as it is written. -/
def document
    (ls : List Line) : String :=
  String.join (ls.map Line.write)

end Markup

end Lindenmayer
