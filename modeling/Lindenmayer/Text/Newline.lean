/-
  This file defines the reading of line ends.

  Key definitions include:
    * `Text.unifyNewlines`
-/

namespace Lindenmayer

namespace Text

------------------------------------------------------------
-- Line Ends
------------------------------------------------------------

/-
  Every line end becomes a line feed: a carriage return with
  a line feed, and a carriage return alone.
-/
def unifyNewlines : List Char → List Char
  | [] => []
  | '\r' :: '\n' :: cs => '\n' :: unifyNewlines cs
  | c :: cs =>
      (if c = '\r' then '\n' else c) :: unifyNewlines cs

end Text

end Lindenmayer
