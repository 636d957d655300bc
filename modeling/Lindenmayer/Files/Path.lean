/-
  This file defines paths and the locations they name.

  A location is the list of names that lead to it from the
  root.  The names of a path stand between its slashes; an
  empty name and one dot stay, and two dots go up.

  Key definitions include:
    * `Files.Location`
    * `Files.names`
    * `Files.locate`
-/

namespace Lindenmayer

namespace Files

------------------------------------------------------------
-- Locations
------------------------------------------------------------

/- The names that lead to a file from the root. -/
abbrev Location := List String

/- The path of a location from the root. -/
def Location.path
    (l : Location) : String :=
  "/" ++ "/".intercalate l

------------------------------------------------------------
-- Names of a Path
------------------------------------------------------------

/-
  The part of a text before its first slash, and the parts
  after that between its slashes.
-/
def splitSlashes : List Char → List Char × List (List Char)
  | [] => ([], [])
  | c :: cs =>
      let r := splitSlashes cs
      if c = '/' then ([], r.1 :: r.2) else (c :: r.1, r.2)

/- The names of a path; some of them may be empty. -/
def names
    (path : String) : List String :=
  let r := splitSlashes path.toList
  (r.1 :: r.2).map String.ofList

/- A path that begins with a slash begins at the root. -/
def isAbsolute
    (path : String) : Bool :=
  path.toList.head? == some '/'

/- Where a path begins, seen from a place. -/
def origin
    (place : Location)
    (path : String) : Location :=
  if isAbsolute path then [] else place

------------------------------------------------------------
-- Lexical Resolution
------------------------------------------------------------

/- Go on to a name, looking at names only. -/
def step
    (l : Location)
    (name : String) : Location :=
  if name = "" ∨ name = "." then l
  else if name = ".." then l.dropLast
  else l ++ [name]

/- The location that names lead to, by the names only. -/
def follow
    (l : Location)
    (ns : List String) : Location :=
  ns.foldl step l

/- The location of a path, by its names only. -/
def locate
    (place : Location)
    (path : String) : Location :=
  follow (origin place path) (names path)

------------------------------------------------------------
-- Limits
------------------------------------------------------------

/- A name may have this many bytes. -/
def mostNameBytes : Nat :=
  255

/- A path may have this many bytes. -/
def mostPathBytes : Nat :=
  4095

/- Whether a text has a character of code zero. -/
def hasZero
    (s : String) : Bool :=
  s.toList.contains '\x00'

end Files

end Lindenmayer
