import Lindenmayer.Command.Request
import Lindenmayer.Decimal.Shortest
import Lindenmayer.Drawing.Svg
import Lindenmayer.Grammar.Reading

/-
  This file defines the work of commands: what they print,
  and what they write or why they stop.

  The work depends only on the command and on the L-system
  that is read; no file is touched by it.

  Key definitions include:
    * `Command.Refusal`
    * `Command.Breakdown`
    * `Command.Work`
    * `Command.work`
    * `Command.Request.work`
-/

namespace Lindenmayer

namespace Command

open scoped Arithmetic

------------------------------------------------------------
-- Stops
------------------------------------------------------------

/- The causes that are told to the user. -/
inductive Refusal where
  | grammar (e : ParseError)
  | config (e : ConfigError)
  | access (f : Files.Fault) (path : String)
deriving DecidableEq, Repr

namespace Refusal

/- The line that tells a cause. -/
def line : Refusal → String
  | .grammar (.unreadableFile path) =>
      "File error: " ++
        (ParseError.unreadableFile path).message ++ "\n"
  | .grammar e => "Grammar error: " ++ e.message ++ "\n"
  | .config e => "Config error: " ++ e.message ++ "\n"
  | .access f path =>
      "File error: " ++
        (Files.AccessError.fault f path).message ++ "\n"

/- The exit code of the program after a refusal. -/
def code : Nat :=
  2

end Refusal

/- The causes that the program breaks down of. -/
inductive Breakdown where
  | load (e : LoadError)
  | limitTooLarge
  | drawing (e : RenderError)
  | access (e : Files.AccessError)
  | blank (b : Blank)
deriving DecidableEq, Repr

namespace Breakdown

/- The wording of a breakdown, if it has one. -/
def message? : Breakdown → Option String
  | .load e => e.message?
  | .limitTooLarge =>
      some
        ("Stop argument for islice() must be None or " ++
          "an integer: 0 <= x <= sys.maxsize.")
  | .drawing e => some e.message
  | .access e => some e.message
  | .blank b => some b.message

end Breakdown

/- A command stops early by a refusal or a breakdown. -/
inductive Stop where
  | refused (r : Refusal)
  | broken (b : Breakdown)
deriving DecidableEq, Repr

namespace Stop

/- Configuration errors are refusals. -/
def ofConfigError
    (e : ConfigError) : Stop :=
  .refused (.config e)

/- Only configuration errors of renderers are refusals. -/
def ofRenderError : RenderError → Stop
  | .config e => ofConfigError e
  | e => .broken (.drawing e)

/- Parse and configuration errors of grammars are refusals. -/
def ofLoadError : LoadError → Stop
  | .failure (.parse e) => .refused (.grammar e)
  | .failure (.config e) => ofConfigError e
  | e => .broken (.load e)

/- Faults of paths are refusals. -/
def ofAccessError : Files.AccessError → Stop
  | .fault f path => .refused (.access f path)
  | e => .broken (.access e)

end Stop

------------------------------------------------------------
-- Works
------------------------------------------------------------

/- How a work ends. -/
inductive Ending where
  | done
  | writing (path content : String)
  | stopped (s : Stop)
deriving DecidableEq, Repr

/- What is printed, and how the work ends. -/
structure Work where
  printed : String
  ending : Ending
deriving DecidableEq, Repr

namespace Work

/- Stop with nothing printed. -/
def stopped
    (s : Stop) : Work :=
  ⟨"", .stopped s⟩

/- Print a text, or stop with nothing printed. -/
def ofText : Except Stop String → Work
  | .ok s => ⟨s, .done⟩
  | .error e => stopped e

end Work

------------------------------------------------------------
-- Unfolding
------------------------------------------------------------

/- The unfolding of an L-system that a subject asks for. -/
def unfold
    (s : Subject)
    (l : LSystem) : Except Stop (Unfolding Char) :=
  match Unfolding.start l.rules s.seed.toList s.bound with
  | .ok u => .ok u
  | .error e => .error (.ofConfigError e)

/- The standard meanings of characters. -/
def meaning : Char → Instruction :=
  InstructionTable.standard.meaning

------------------------------------------------------------
-- Rendering
------------------------------------------------------------

/- The polylines of an unfolding. -/
def draw
    (c : Config)
    (u : Unfolding Char) : Except Stop (List Polyline) :=
  match Turtle.start c with
  | .error e => .error (.ofConfigError e)
  | .ok t =>
      match Renderer.play meaning (.turtle t) u with
      | ⟨_, some e⟩ => .error (.ofRenderError e)
      | ⟨r, none⟩ => .ok r.polylines

/- The document of the drawing of a grammar. -/
def renderText
    (s : Subject)
    (margin : Float)
    (l : LSystem) : Except Stop String :=
  match unfold s l with
  | .error e => .error e
  | .ok u =>
      match draw l.config u with
      | .error e => .error e
      | .ok ls =>
          let o : Svg.Options :=
            { margin := margin, title := some s.grammar }
          match Svg.document o l.config ls with
          | .error e => .error (.ofConfigError e)
          | .ok text => .ok text

/- The work of drawing. -/
def renderWork
    (s : Subject)
    (output : String)
    (margin : Float)
    (l : LSystem) : Work :=
  match renderText s margin l with
  | .error e => .stopped e
  | .ok text => ⟨"", .writing output text⟩

------------------------------------------------------------
-- Validating
------------------------------------------------------------

/- The line of a rule. -/
def ruleLine
    (r : Rule Char) : String :=
  "  " ++ r.symbol.toString ++ " => " ++
    " ".intercalate (r.production.map Char.toString) ++ "\n"

/- A number and the factor it changes by. -/
def scaled
    (x factor : Float) : String :=
  Decimal.shortestText x ++ " (x" ++
    Decimal.shortestText factor ++ ")\n"

/- The lines that describe a grammar. -/
def account
    (l : LSystem) : String :=
  let c := l.config
  "rules: " ++ toString l.rules.rules.length ++ "\n" ++
    String.join (l.rules.rules.map ruleLine) ++
    "step: " ++ scaled c.step c.stepFactor ++
    "angle: " ++ scaled c.angle c.angleFactor ++
    "line width: " ++
    scaled c.lineWidth c.lineWidthFactor ++
    "colors: pen=" ++ c.pen ++
    " background=" ++ c.background ++ "\n"

/- The number of items that are counted at most. -/
def sampleSize : Nat :=
  10000

/- Whether an item is a certain event. -/
def isEvent
    (e : Event Char)
    (i : Item Char) : Bool :=
  i = .event e

/- The lines that count the items of a sample. -/
def countLines
    (b : Bound)
    (items : List (Item Char)) : String :=
  let full := decide (items.length = sampleSize)
  let label :=
    toString items.length ++ (if full then "+" else "")
  let counted :=
    match b with
    | .iterations _ => "symbols (sampled): " ++ label ++ "\n"
    | .depth _ =>
        "events (sampled): " ++ label ++
          " (push=" ++ toString (items.countP (isEvent .push)) ++
          " pop=" ++ toString (items.countP (isEvent .pop)) ++
          ")\n"
  let warning :=
    "warning: expansion exceeds " ++ toString sampleSize ++
      " items; counts are based on the first portion only\n"
  if full then counted ++ warning else counted

/- The lines that count the first items of an unfolding. -/
def sampleText
    (s : Subject)
    (l : LSystem) : Except Stop String :=
  match unfold s l with
  | .error e => .error e
  | .ok u =>
      match (Source.take sampleSize u).1 with
      | (_, some e) => .error (.ofConfigError e)
      | (items, none) => .ok (countLines s.bound items)

/-
  The work of giving an account.  What describes the grammar
  is printed even if the unfolding stops.
-/
def validateWork
    (s : Subject)
    (l : LSystem) : Work :=
  match sampleText s l with
  | .ok text => ⟨account l ++ text, .done⟩
  | .error e => ⟨account l, .stopped e⟩

------------------------------------------------------------
-- Expanding
------------------------------------------------------------

/- The text of an item by itself. -/
def describe : Item Char → String
  | .symbol c => c.toString
  | .event e => e.describe

/- What stands between the texts of items. -/
def separator : Bound → String
  | .iterations _ => ""
  | .depth _ => " "

/- The greatest limit. -/
def greatestLimit : Int :=
  2 ^ (63 : Nat) - 1

/- The text of items: each by itself, or their glyphs. -/
def itemsText
    (b : Bound)
    (raw : Bool)
    (items : Limited (Unfolding Char)) : Except Stop String :=
  if raw then
    match Source.collect items with
    | (_, some e) => .error (.ofConfigError e)
    | (is, none) =>
        .ok ((separator b).intercalate (is.map describe))
  else
    match Renderer.play meaning (.collector "") items with
    | ⟨_, some e⟩ => .error (.ofRenderError e)
    | ⟨r, none⟩ => .ok r.text

/- The text that expanding a grammar prints. -/
def expandText
    (s : Subject)
    (limit : Option Int)
    (raw : Bool)
    (l : LSystem) : Except Stop String :=
  match unfold s l with
  | .error e => .error e
  | .ok u =>
      if limit.any (greatestLimit < ·) then
        .error (.broken .limitTooLarge)
      else
        match
          itemsText s.bound raw ⟨u, limit.map Int.toNat⟩
        with
        | .ok text => .ok (text ++ "\n")
        | .error e => .error e

------------------------------------------------------------
-- Commands
------------------------------------------------------------

/- The work of a command whose grammar is read. -/
def workOn : Command → LSystem → Work
  | .render s output margin, l => renderWork s output margin l
  | .validate s, l => validateWork s l
  | .expand s limit raw, l =>
      .ofText (expandText s limit raw l)

/- A limit that is refused before anything is read. -/
def hasNegativeLimit : Command → Bool
  | .expand _ (some n) _ => decide (n < 0)
  | _ => false

/- The work of a command. -/
def work
    (c : Command)
    (read : Except LoadError LSystem) : Work :=
  if c.hasNegativeLimit then
    .stopped (.ofConfigError .negativeLimit)
  else
    match read with
    | .error e => .stopped (.ofLoadError e)
    | .ok l => c.workOn l

------------------------------------------------------------
-- Requests
------------------------------------------------------------

/- The blank value that a refusal is due to. -/
def blankOf
    (blanks : List Blank)
    (e : ConfigError) : Option Blank :=
  blanks.find? fun b => b.refusal? = some e

/-
  An ending with blank values: a stop that is due to a blank
  number is a breakdown, and so is writing to a blank path.
-/
def Ending.withBlanks
    (blanks : List Blank) : Ending → Ending
  | .stopped (.refused (.config e)) =>
      match blankOf blanks e with
      | some b => .stopped (.broken (.blank b))
      | none => .stopped (.refused (.config e))
  | .writing path content =>
      if .output ∈ blanks then
        .stopped (.broken (.blank .output))
      else .writing path content
  | e => e

/- The work of a request. -/
def Request.work
    (r : Request)
    (read : Except LoadError LSystem) : Work :=
  let w := r.command.work read
  { w with ending := w.ending.withBlanks r.blanks }

end Command

end Lindenmayer
