/-
  This file defines the ways in which a command line ends the
  program before anything is done.

  Key definitions include:
    * `Command.Exit`
    * `Command.Exit.code`
-/

namespace Lindenmayer

namespace Command

/- Help is asked for, or the command line is no command. -/
inductive Exit where
  | help
  | usage
deriving DecidableEq, Repr

namespace Exit

/- The exit code of the program. -/
def code : Exit → Nat
  | .help => 0
  | .usage => 2

end Exit

end Command

end Lindenmayer
