import Lindenmayer.Command.Session

/-
  This file is the program of the command line.

  Key definitions include:
    * `Program.disk`
    * `Program.run`
    * `main`
-/

namespace Lindenmayer

namespace Program

/- The fault that a disk reports. -/
def faultOf : IO.Error → Files.Fault
  | .alreadyExists _ code details =>
      .other code.toNat details
  | .inappropriateType _ code details =>
      .other code.toNat details
  | .interrupted _ code details => .other code.toNat details
  | .invalidArgument _ code details =>
      .other code.toNat details
  | .noFileOrDirectory _ code details =>
      .other code.toNat details
  | .permissionDenied _ code details =>
      .other code.toNat details
  | .resourceExhausted _ code details =>
      .other code.toNat details
  | e => .other 5 (toString e)

/- Access to a path, with its faults caught. -/
def access
    {α : Type}
    (path : String)
    (action : IO α) : IO (Except Files.AccessError α) := do
  try
    return .ok (← action)
  catch e =>
    return .error (.fault (faultOf e) path)

/- Write a file and the directories it stands in. -/
def writeFile
    (path content : String) : IO Unit := do
  let place :=
    Files.locate [] (← IO.currentDir).toString
  let folder : Files.Location :=
    (Files.locate place path).dropLast
  IO.FS.createDirAll folder.path
  IO.FS.writeFile path content

/- The disk of the machine. -/
def disk : Files.Disk IO where
  read path := access path (IO.FS.readBinFile path)
  write path content := access path (writeFile path content)

/- Tell a report, and give its exit code. -/
def tell
    (r : Report) : IO UInt32 := do
  IO.print r.output
  IO.eprint r.complaint
  match r.result with
  | .ok code => return code.toUInt32
  | .error b =>
      b.message?.forM IO.eprintln
      return 1

/- Run a command line. -/
def run
    (words : List String) : IO UInt32 := do
  match ← Command.answer disk words with
  | .ok r => tell r
  | .error e => return e.code.toUInt32

end Program

end Lindenmayer

/- The program. -/
def main
    (words : List String) : IO UInt32 :=
  Lindenmayer.Program.run words
