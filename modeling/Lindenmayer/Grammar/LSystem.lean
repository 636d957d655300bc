import Lindenmayer.Config
import Lindenmayer.Grammar.Lexical
import Lindenmayer.RuleStore

/-
  This file defines L-systems and their grammars.

  A grammar has a render section of settings and a rules
  section with at least one rule.  Every line ends with a
  line end, and the whole text must be a grammar.

  Key definitions include:
    * `LSystem`
    * `Grammar.settings`
    * `Grammar.configSection`
    * `Grammar.rule`
    * `Grammar.rulesSection`
    * `Grammar.grammar`
    * `LSystem.parse`
-/

namespace Lindenmayer

/- An L-system: its rules and the way it is drawn. -/
structure LSystem where
  rules : RuleStore Char
  config : Config

namespace Grammar

------------------------------------------------------------
-- Settings
------------------------------------------------------------

/-
  A line that gives a key a value, with blanks before it and
  spaces and tabs between its parts.
-/
def settingLine
    {α : Type}
    (key : String)
    (value : Parser α)
    (setting : α → Setting) : Parser Setting :=
  let line :=
    (Row.cons (.literal key)
      (.cons (.literal "=")
        (.cons value (.cons newline .nil)))).spaced
      fun r => .ok (setting r.2.2.1)
  (Row.cons .skipBlanks (.cons line .nil)).sequence
    fun r => .ok r.2.1

/- The parsers of the lines of all keys. -/
def settingLines : List (Parser Setting) :=
  DecimalKey.all.map
      (fun k => settingLine k.name decimal (.decimal k)) ++
    TextKey.all.map
      (fun k => settingLine k.name text (.text k))

/- Any number of settings. -/
def settings : Parser (List Setting) :=
  .many (.oneOf settingLines)

/- The configuration that a render section describes. -/
def configSection : Parser Config :=
  settings.map "_to_config" fun items =>
    .ok (Config.ofSettings items)

------------------------------------------------------------
-- Rules
------------------------------------------------------------

/- A rule: a symbol, an arrow, and its production. -/
def rule : Parser (Rule Char) :=
  let line :=
    (Row.cons symbol
      (.cons (.literal "=>")
        (.cons (symbol.atLeast 1)
          (.cons newline .nil)))).spaced
      fun r => .ok (Rule.mk r.1 r.2.2.1)
  (Row.cons .skipBlanks (.cons line .nil)).sequence
    fun r => .ok r.2.1

/- The store of rules, later rules replacing earlier ones. -/
def storeOf
    (rules : List (Rule Char)) :
    Except Failure (RuleStore Char) :=
  match RuleStore.ofRules rules with
  | .ok s => .ok s
  | .error e => .error (.config e)

/- One or more rules. -/
def rulesSection : Parser (RuleStore Char) :=
  (rule.atLeast 1).map "from_rules" storeOf

------------------------------------------------------------
-- Grammars
------------------------------------------------------------

/- The line that opens a section. -/
def header
    (name : String) : Parser Unit :=
  let line :=
    (Row.cons (.literal name)
      (.cons (.char ':') (.cons newline .nil))).spaced .ok
  (Row.cons .skipBlanks (.cons line .nil)).sequence
    fun _ => .ok ()

/- A whole grammar. -/
def grammar : Parser LSystem :=
  let row :=
    Row.cons (header "render")
      (.cons configSection
        (.cons (header "rules")
          (.cons rulesSection (.cons .skipBlanks .nil))))
  (row.sequence fun r =>
    .ok ⟨r.2.2.2.1, r.2.1⟩).complete

end Grammar

namespace LSystem

/- The L-system that a text describes. -/
def parse
    (source : List Char) : Except Failure LSystem :=
  match Grammar.grammar.run source with
  | .ok r => .ok r.1
  | .error e => .error e

end LSystem

end Lindenmayer
