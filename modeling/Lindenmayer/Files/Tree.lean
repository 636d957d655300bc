import Lindenmayer.Files.Access
import Lindenmayer.Files.Path

/-
  This file defines trees of files, which are held in memory
  and accessed like a disk.

  Key definitions include:
    * `Files.Tree`
    * `Files.Tree.read`
    * `Files.Tree.write`
    * `Files.Tree.disk`
-/

namespace Lindenmayer

namespace Files

/- Bytes are compared as by the core library. -/
local instance bytesDecidableEq : DecidableEq ByteArray :=
  ByteArray.instDecidableEq

------------------------------------------------------------
-- Trees
------------------------------------------------------------

/- What stands at a location. -/
inductive Entry where
  | directory
  | file (content : ByteArray)
deriving DecidableEq

/-
  A tree of files, and the place from which paths are seen
  that do not begin at the root.
-/
structure Tree where
  place : Location
  entries : List (Location × Entry)
deriving DecidableEq

namespace Tree

/- What stands at a location; the root is a directory. -/
def find?
    (t : Tree)
    (l : Location) : Option Entry :=
  if l = [] then some .directory
  else (t.entries.find? fun e => e.1 = l).map (·.2)

/- Let something stand at a location. -/
def put
    (t : Tree)
    (l : Location)
    (e : Entry) : Tree :=
  { t with
    entries := (t.entries.filter fun f => f.1 ≠ l) ++ [(l, e)] }

------------------------------------------------------------
-- Walking
------------------------------------------------------------

/- Nothing but a directory may be walked through. -/
def enter
    (t : Tree)
    (l : Location) : Except Fault Unit :=
  match t.find? l with
  | none => .error .missing
  | some (.file _) => .error .notDirectory
  | some .directory => .ok ()

/-
  Walk on by names.  Every location but the last must be a
  directory.
-/
def walk
    (t : Tree)
    (l : Location) :
    List String → Except Fault Location
  | [] => .ok l
  | n :: ns =>
      match t.enter l with
      | .error e => .error e
      | .ok () =>
          if mostNameBytes < n.utf8ByteSize then
            .error .nameTooLong
          else t.walk (step l n) ns

/- Every path has a name, and is not too long. -/
def accept
    (path : String) : Except Fault Unit :=
  if path.isEmpty then .error .missing
  else if mostPathBytes < path.utf8ByteSize then
    .error .nameTooLong
  else .ok ()

------------------------------------------------------------
-- Reading
------------------------------------------------------------

/- The bytes of the file that a path leads to. -/
def content
    (t : Tree)
    (path : String) : Except Fault ByteArray :=
  match accept path with
  | .error e => .error e
  | .ok () =>
      match t.walk (origin t.place path) (names path) with
      | .error e => .error e
      | .ok l =>
          match t.find? l with
          | none => .error .missing
          | some .directory => .error .isDirectory
          | some (.file bytes) => .ok bytes

/- Read a file. -/
def read
    (t : Tree)
    (path : String) : Except AccessError ByteArray :=
  if hasZero path then .error .zeroInPath
  else
    match t.content path with
    | .ok bytes => .ok bytes
    | .error e => .error (.fault e path)

------------------------------------------------------------
-- Making Directories
------------------------------------------------------------

/- What is wrong with making directories through a file. -/
def obstacle
    (l : Location) : List String → AccessError
  | [] => .fault .occupied l.path
  | n :: _ =>
      if hasZero n then .zeroInPath
      else .fault .notDirectory (Location.path (l ++ [n]))

/-
  Make the directories that are missing on the way from a
  location by names.  Those made before an obstacle stay.
-/
def makeDirectories
    (t : Tree)
    (l : Location) :
    List String → Except AccessError Unit × Tree
  | [] => (.ok (), t)
  | n :: ns =>
      let k := l ++ [n]
      match t.find? k with
      | some .directory => t.makeDirectories k ns
      | some (.file _) => (.error (obstacle k ns), t)
      | none =>
          if hasZero n then (.error .zeroInPath, t)
          else if mostNameBytes < n.utf8ByteSize then
            (.error (.fault .nameTooLong k.path), t)
          else (t.put k .directory).makeDirectories k ns

------------------------------------------------------------
-- Writing
------------------------------------------------------------

/-
  The names of a path without the empty names at its end, and
  whether there were any.
-/
def trimmedNames
    (path : String) : List String × Bool :=
  let ns := names path
  let kept := (ns.reverse.dropWhile (·.isEmpty)).reverse
  (kept, kept.length < ns.length)

/-
  The location of the file that a path leads to, whether it
  is there or not.
-/
def target
    (t : Tree)
    (path : String) : Except Fault Location :=
  match accept path with
  | .error e => .error e
  | .ok () =>
      let r := trimmedNames path
      match t.walk (origin t.place path) r.1.dropLast with
      | .error e => .error e
      | .ok l =>
          match t.enter l, r.1.getLast? with
          | .error e, _ => .error e
          | .ok (), none => .error .isDirectory
          | .ok (), some n =>
              if r.2 || n = "." || n = ".." then
                .error .isDirectory
              else if mostNameBytes < n.utf8ByteSize then
                .error .nameTooLong
              else
                match t.find? (l ++ [n]) with
                | some .directory => .error .isDirectory
                | _ => .ok (l ++ [n])

/- Write a file where all directories are. -/
def writeFile
    (t : Tree)
    (path content : String) :
    Except AccessError Unit × Tree :=
  if hasZero path then (.error .zeroInPath, t)
  else
    match t.target path with
    | .error e => (.error (.fault e path), t)
    | .ok l => (.ok (), t.put l (.file content.toUTF8))

/-
  Write a file.  The directories it is to stand in, by the
  names of its path, are made first.
-/
def write
    (t : Tree)
    (path content : String) :
    Except AccessError Unit × Tree :=
  match
    t.makeDirectories [] (locate t.place path).dropLast
  with
  | (.ok (), u) => u.writeFile path content
  | (.error e, u) => (.error e, u)

/- A tree is a disk whose state it is. -/
def disk : Disk (StateM Tree) where
  read path t := (t.read path, t)
  write path content t := t.write path content

------------------------------------------------------------
-- Building
------------------------------------------------------------

/- The tree with an entry and the directories above it. -/
def add
    (t : Tree)
    (path : String)
    (e : Entry) : Tree :=
  let l := locate t.place path
  (t.makeDirectories [] l.dropLast).2.put l e

/- The tree that has a place and nothing else. -/
def empty
    (place : Location) : Tree :=
  ((⟨place, []⟩ : Tree).makeDirectories [] place).2

/- The files below the place, with the names of their paths. -/
def files
    (t : Tree) : List (String × ByteArray) :=
  t.entries.filterMap fun e =>
    match e.2 with
    | .directory => none
    | .file bytes =>
        if t.place.isPrefixOf e.1 then
          some
            ("/".intercalate (e.1.drop t.place.length), bytes)
        else none

end Tree

end Files

end Lindenmayer
