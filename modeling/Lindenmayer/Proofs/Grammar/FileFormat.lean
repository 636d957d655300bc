import Lindenmayer.Config
import Lindenmayer.Decimal.Numeral
import Lindenmayer.Proofs.Text.Language
import Lindenmayer.RuleStore
import Lindenmayer.Text.Blank

/-
  The format of grammar files, as languages of texts.

  The languages are built by concatenation, union and
  repetition, and say nothing about how a text is read.  A
  line comes in two forms: the language of all lines of its
  kind, and the language of the lines that stand for a given
  setting or rule.

  Key definitions include:
    * `FileFormat.settingLine`
    * `FileFormat.ruleLine`
    * `FileFormat.file`
    * `FileFormat.settingLineOf`
    * `FileFormat.ruleLineOf`
    * `FileFormat.fileOf`
-/

------------------------------------------------------------
-- Parts of Lines
------------------------------------------------------------

namespace Lindenmayer

namespace FileFormat

open scoped Computability

/- The language of one text. -/
def word
    (s : String) : Language Char :=
  {t | t = s.toList}

/- Spaces and tabs. -/
def gaps : Language Char :=
  Text.runsOf Text.isGap

/- Blanks of every kind, line ends among them. -/
def blanks : Language Char :=
  Text.runsOf Text.isBlank

/- A line end of any kind. -/
def newline : Language Char :=
  word "\r\n" + word "\n" + word "\r"

/- One or more ASCII digits. -/
def digits : Language Char :=
  {t | t ≠ [] ∧ ∀ c ∈ t, '0' ≤ c ∧ c ≤ '9'}

/- Digits, a point, and digits. -/
def decimals : Language Char :=
  [digits, word ".", digits].prod

/-
  The values of text keys: at least one character, up to the
  line end, the first one no space or tab.
-/
def texts : Language Char :=
  {t | t ≠ [] ∧ (∀ c ∈ t, c ≠ '\r' ∧ c ≠ '\n') ∧
    ∀ c ∈ t.head?, c ≠ ' ' ∧ c ≠ '\t'}

/- One given character of visible ASCII. -/
def symbolOf
    (c : Char) : Language Char :=
  {t | 0x21 ≤ c.toNat ∧ c.toNat ≤ 0x7e ∧ t = [c]}

/- One character of visible ASCII. -/
def symbol : Language Char :=
  {t | ∃ c, t ∈ symbolOf c}

------------------------------------------------------------
-- Lines and Files
------------------------------------------------------------

/- The line that opens a section. -/
def header
    (name : String) : Language Char :=
  [blanks, word name, gaps, word ":", gaps, newline].prod

/- A line that gives a key a value. -/
def entry
    (key : String)
    (value : Language Char) : Language Char :=
  [blanks, word key, gaps, word "=", gaps, value,
    newline].prod

/- A line that gives any of the keys a value. -/
def settingLine : Language Char :=
  {t | (∃ k : DecimalKey,
      t ∈ entry k.name (decimals * gaps)) ∨
    ∃ k : TextKey, t ∈ entry k.name texts}

/- A symbol, an arrow, and one or more symbols. -/
def ruleLine : Language Char :=
  [blanks, symbol, gaps, word "=>", gaps * symbol,
    (gaps * symbol)∗, gaps, newline].prod

/-
  A whole file: any number of settings in the first section,
  and one or more rules in the second.
-/
def file : Language Char :=
  [header "render", settingLine∗, header "rules", ruleLine,
    ruleLine∗, blanks].prod

/- The decimals that are converted to a number. -/
def decimalsOf
    (x : Float) : Language Char :=
  {t | t ∈ decimals ∧
    Numeral.float? (String.ofList t) = some x}

/- The values that are a text but for blanks at its ends. -/
def textsOf
    (s : String) : Language Char :=
  {t | t ∈ texts ∧ String.ofList (Text.trim t) = s}

/- The lines that stand for a setting. -/
def settingLineOf : Setting → Language Char
  | .decimal k x => entry k.name (decimalsOf x * gaps)
  | .text k s => entry k.name (textsOf s)

/- The symbols of a word, spaces and tabs before each. -/
def symbolsOf
    (word : List Char) : Language Char :=
  (word.map fun c => gaps * symbolOf c).prod

/- The lines that stand for a rule. -/
def ruleLineOf
    (r : Rule Char) : Language Char :=
  {t | r.production ≠ [] ∧
    t ∈ [blanks, symbolOf r.symbol, gaps, word "=>",
      symbolsOf r.production, gaps, newline].prod}

/-
  The files with the given settings and rules, line by line
  and in order.
-/
def fileOf
    (settings : List Setting)
    (rules : List (Rule Char)) : Language Char :=
  {t | rules ≠ [] ∧
    t ∈ [header "render", (settings.map settingLineOf).prod,
      header "rules", (rules.map ruleLineOf).prod,
      blanks].prod}

end FileFormat

end Lindenmayer
