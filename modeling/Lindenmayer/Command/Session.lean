import Lindenmayer.Command.Work
import Lindenmayer.Files.Tree

/-
  This file defines the running of a command line on a disk.

  The grammar is read, the work of the command is done, and
  its document, if it has one, is written.

  Key definitions include:
    * `Report`
    * `Command.run`
    * `Command.answer`
-/

namespace Lindenmayer

------------------------------------------------------------
-- Reports
------------------------------------------------------------

/-
  What a command printed and complained of, and the breakdown
  or the exit code that it ended with.
-/
structure Report where
  output : String
  complaint : String
  result : Except Command.Breakdown Nat

namespace Report

/- The report of a command that succeeds. -/
def success
    (output : String) : Report :=
  ⟨output, "", .ok 0⟩

/- The report of a command that stops. -/
def ofStop
    (output : String) : Command.Stop → Report
  | .refused r => ⟨output, r.line, .ok Command.Refusal.code⟩
  | .broken b => ⟨output, "", .error b⟩

end Report

------------------------------------------------------------
-- Running
------------------------------------------------------------

namespace Command

variable {m : Type → Type} [Monad m]

/- Bring a work to its end. -/
def finish
    (disk : Files.Disk m)
    (w : Work) : m Report :=
  match w.ending with
  | .done => return .success w.printed
  | .stopped s => return .ofStop w.printed s
  | .writing path content => do
      match ← disk.write path content with
      | .ok () => return .success w.printed
      | .error e =>
          return .ofStop w.printed (.ofAccessError e)

/- Run a request. -/
def run
    (disk : Files.Disk m)
    (r : Request) : m Report := do
  let path := r.command.subject.grammar
  let content ← disk.read path
  finish disk (r.work (LSystem.ofFile path content))

/- Run a command line. -/
def answer
    (disk : Files.Disk m)
    (words : List String) : m (Except Exit Report) :=
  match ofWords words with
  | .error e => return .error e
  | .ok r => do return .ok (← run disk r)

end Command

end Lindenmayer
