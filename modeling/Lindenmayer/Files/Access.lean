import Lindenmayer.Text.Quoted

/-
  This file defines the access to files, and the causes for
  which it is denied.

  Key definitions include:
    * `Files.Fault`
    * `Files.AccessError`
    * `Files.Disk`
-/

namespace Lindenmayer

namespace Files

------------------------------------------------------------
-- Denied Access
------------------------------------------------------------

/- What is wrong with a path. -/
inductive Fault where
  | missing
  | occupied
  | notDirectory
  | isDirectory
  | nameTooLong
  | other (code : Nat) (reason : String)
deriving DecidableEq, Repr

namespace Fault

/- The number of a fault. -/
def code : Fault → Nat
  | .missing => 2
  | .occupied => 17
  | .notDirectory => 20
  | .isDirectory => 21
  | .nameTooLong => 36
  | .other n _ => n

/- The wording of a fault. -/
def reason : Fault → String
  | .missing => "No such file or directory"
  | .occupied => "File exists"
  | .notDirectory => "Not a directory"
  | .isDirectory => "Is a directory"
  | .nameTooLong => "File name too long"
  | .other _ s => s

end Fault

/-
  Access is denied for a fault of a path, or because the path
  has a character of code zero, which no name has.
-/
inductive AccessError where
  | fault (f : Fault) (path : String)
  | zeroInPath
deriving DecidableEq, Repr

namespace AccessError

/- The wording of a denied access. -/
def message : AccessError → String
  | .fault f path =>
      "[Errno " ++ toString f.code ++ "] " ++ f.reason ++
        ": " ++ Text.quote path
  | .zeroInPath => "embedded null byte"

end AccessError

------------------------------------------------------------
-- Disks
------------------------------------------------------------

/-
  The two ways in which files are accessed: the bytes of a
  file are read, or a text becomes the content of a file.
-/
structure Disk (m : Type → Type) where
  read : String → m (Except AccessError ByteArray)
  write : String → String → m (Except AccessError Unit)

end Files

end Lindenmayer
