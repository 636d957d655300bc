import Lindenmayer.Symbol

/-
  This file defines the instructions that symbols stand for.

  Key definitions include:
    * `Instruction`
    * `Instruction.name`
    * `Instruction.glyph`
    * `InstructionTable`
    * `InstructionTable.meaning`
    * `InstructionTable.standard`
-/

namespace Lindenmayer

------------------------------------------------------------
-- Instructions
------------------------------------------------------------

/- The fixed set of instructions. -/
inductive Instruction where
  | forward
  | rotateLeft
  | rotateRight
  | push
  | pop
  | increaseStep
  | decreaseStep
  | noop
deriving DecidableEq, Repr

namespace Instruction

/- All instructions. -/
def all : List Instruction :=
  [.forward, .rotateLeft, .rotateRight, .push, .pop,
    .increaseStep, .decreaseStep, .noop]

/- The name of an instruction. -/
def name : Instruction → String
  | .forward => "forward"
  | .rotateLeft => "rotate_left"
  | .rotateRight => "rotate_right"
  | .push => "push"
  | .pop => "pop"
  | .increaseStep => "increase_step"
  | .decreaseStep => "decrease_step"
  | .noop => "noop"

/- The instruction that has a name. -/
def ofName?
    (s : String) : Option Instruction :=
  all.find? fun i => i.name = s

/-
  The glyph of an instruction; doing nothing has none.
-/
def glyph : Instruction → String
  | .forward => "F"
  | .rotateLeft => "-"
  | .rotateRight => "+"
  | .push => "["
  | .pop => "]"
  | .increaseStep => ">"
  | .decreaseStep => "<"
  | .noop => ""

end Instruction

------------------------------------------------------------
-- Tables
------------------------------------------------------------

/-
  A table gives symbols their instructions.  The last entry
  of a symbol counts.
-/
structure InstructionTable (α : Type) where
  entries : List (α × Instruction)

namespace InstructionTable

variable {α : Type}

/- The last entry of a symbol. -/
def lastEntry
    [DecidableEq α]
    (a : α) :
    List (α × Instruction) → Option Instruction
  | [] => none
  | e :: rest =>
      match lastEntry a rest with
      | some i => some i
      | none => if e.1 = a then some e.2 else none

/- A symbol without an entry means to do nothing. -/
def meaning
    [DecidableEq α]
    (t : InstructionTable α)
    (a : α) : Instruction :=
  (lastEntry a t.entries).getD .noop

/- The standard meanings of characters. -/
def standard : InstructionTable Char :=
  ⟨[('F', .forward), ('G', .forward),
    ('-', .rotateLeft), ('+', .rotateRight),
    ('[', .push), (']', .pop),
    ('>', .increaseStep), ('<', .decreaseStep)]⟩

/- The standard meanings of symbols of one character. -/
def standardSymbols : InstructionTable Symbol :=
  ⟨standard.entries.map fun e => (Symbol.ofChar e.1, e.2)⟩

end InstructionTable

end Lindenmayer
