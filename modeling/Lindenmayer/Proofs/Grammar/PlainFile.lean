import Lindenmayer.Files.Tree
import Lindenmayer.Proofs.Grammar.Acceptance
import Lindenmayer.Proofs.Grammar.LineEnds

/-
  The plainest file with given colors and rules.

  Its lines are written without blanks, and end in a line
  feed.  It is a file of the format when no color has a blank
  in it and the rules consist of visible ASCII, so that there
  are files with any such rules in any order.

  Key definitions include:
    * `FileFormat.isWord`
    * `FileFormat.isWritable`
    * `FileFormat.plain`

  Correctness is proven by:
    * `FileFormat.plainColor_mem`
    * `FileFormat.plainDecimal_mem`
    * `FileFormat.plainRule_mem`
    * `FileFormat.sections_mem_fileOf`
    * `FileFormat.ofFile_of_mem_fileOf`
    * `FileFormat.ofFile_plain`
    * `FileFormat.ofFile_only_plain`
-/

------------------------------------------------------------
-- Lines
------------------------------------------------------------

namespace Lindenmayer

namespace FileFormat

open Grammar (isSymbol isSymbol_iff)
open Text (append_mem_prod_cons isBlank
  mem_prod_singleton_iff)

/- What may be skipped may be missing. -/
theorem nil_mem_runsOf
    (holds : Char → Bool) :
    [] ∈ Text.runsOf holds :=
  fun _ hMember => absurd hMember List.not_mem_nil

theorem mem_prod_runsOf_cons
    {holds : Char → Bool}
    {ls : List (Language Char)}
    {t : List Char}
    (hMember : t ∈ ls.prod) :
    t ∈ (Text.runsOf holds :: ls).prod :=
  append_mem_prod_cons (nil_mem_runsOf holds) hMember

theorem feed_mem_newline :
    ['\n'] ∈ [newline].prod :=
  (mem_prod_singleton_iff newline ['\n']).mpr
    (.inl (.inr rfl))

/- A list of lines is made of lines for each of its values. -/
theorem flatMap_mem_prod
    {α β : Type}
    (line : α → List Char)
    (value : α → β)
    (lineOf : β → Language Char)
    (as : List α)
    (hEach : ∀ a ∈ as, line a ∈ lineOf (value a)) :
    as.flatMap line ∈ ((as.map value).map lineOf).prod := by
  induction as with
  | nil => rfl
  | cons a as ih =>
      rw [List.forall_mem_cons] at hEach
      exact append_mem_prod_cons hEach.1 (ih hEach.2)

/- The line that opens a section. -/
def plainHeader
    (name : String) : List Char :=
  name.toList ++ [':', '\n']

theorem plainHeader_mem
    (name : String) :
    plainHeader name ∈ header name :=
  mem_prod_runsOf_cons
    (append_mem_prod_cons rfl
      (mem_prod_runsOf_cons
        (append_mem_prod_cons (a := [':']) rfl
          (mem_prod_runsOf_cons feed_mem_newline))))

/- Whether a color is a word without blanks. -/
def isWord
    (s : String) : Bool :=
  !s.toList.isEmpty && s.toList.all fun c => !isBlank c

/- A word without blanks is a text, and is read as it is. -/
theorem word_mem_textsOf
    {s : String}
    (hWord : isWord s = true) :
    s.toList ∈ textsOf s := by
  simp only [isWord, Bool.and_eq_true, Bool.not_eq_true',
    List.isEmpty_eq_false_iff, List.all_eq_true] at hWord
  rcases hWord with ⟨hNotNil, hBlank⟩
  have hKept :
      ∀ t : List Char, (∀ c ∈ t, isBlank c = false) →
        t.dropWhile isBlank = t := by
    intro t hNone
    apply Text.dropWhile_eq_self_of_head?
    intro c hHead
    exact hNone c (List.mem_of_mem_head? hHead)
  have hTrim : Text.trim s.toList = s.toList := by
    rw [Text.trim, Text.trimLeft, hKept _ hBlank,
      Text.trimRight, hKept, List.reverse_reverse]
    intro c hMember
    exact hBlank c (List.mem_reverse.mp hMember)
  refine ⟨⟨hNotNil, ?_, ?_⟩, ?_⟩
  · intro c hMember
    constructor <;>
    · rintro rfl
      cases hBlank _ hMember
  · intro c hHead
    have hOther := hBlank c (List.mem_of_mem_head? hHead)
    constructor <;>
    · rintro rfl
      cases hOther
  · rw [hTrim, String.ofList_toList]

/- The line of a color. -/
def plainColor
    (c : TextKey × String) : List Char :=
  c.1.name.toList ++ '=' :: (c.2.toList ++ ['\n'])

theorem plainColor_mem
    {c : TextKey × String}
    (hWord : isWord c.2 = true) :
    plainColor c ∈ settingLineOf (.text c.1 c.2) :=
  mem_prod_runsOf_cons
    (append_mem_prod_cons rfl
      (mem_prod_runsOf_cons
        (append_mem_prod_cons (a := ['=']) rfl
          (mem_prod_runsOf_cons
            (append_mem_prod_cons (word_mem_textsOf hWord)
              feed_mem_newline)))))

/- The line of a number, given by its numeral. -/
def plainDecimal
    (k : DecimalKey)
    (numeral : List Char) : List Char :=
  k.name.toList ++ '=' :: (numeral ++ ['\n'])

theorem plainDecimal_mem
    {k : DecimalKey}
    {numeral : List Char}
    {x : Float}
    (hValue : numeral ∈ decimalsOf x) :
    plainDecimal k numeral ∈ settingLineOf (.decimal k x) := by
  have hGaps : numeral ∈ decimalsOf x * gaps := by
    rw [← List.append_nil numeral]
    exact Language.append_mem_mul hValue
      (nil_mem_runsOf Text.isGap)
  exact mem_prod_runsOf_cons
    (append_mem_prod_cons rfl
      (mem_prod_runsOf_cons
        (append_mem_prod_cons (a := ['=']) rfl
          (mem_prod_runsOf_cons
            (append_mem_prod_cons hGaps feed_mem_newline)))))

theorem mem_symbolOf
    {c : Char}
    (hSymbol : isSymbol c = true) :
    [c] ∈ symbolOf c := by
  rcases (isSymbol_iff c).mp hSymbol with ⟨hLow, hHigh⟩
  exact ⟨hLow, hHigh, rfl⟩

theorem mem_symbolsOf
    {word : List Char}
    (hSymbols : word.all isSymbol = true) :
    word ∈ symbolsOf word := by
  induction word with
  | nil => rfl
  | cons c word ih =>
      rw [List.all_cons, Bool.and_eq_true] at hSymbols
      exact append_mem_prod_cons
        (Language.append_mem_mul (nil_mem_runsOf Text.isGap)
          (mem_symbolOf hSymbols.1))
        (ih hSymbols.2)

/- Whether a rule can be written in a file. -/
def isWritable
    (r : Rule Char) : Bool :=
  !r.production.isEmpty &&
    (r.symbol :: r.production).all isSymbol

theorem isWritable_iff
    (r : Rule Char) :
    isWritable r = true ↔
      r.production ≠ [] ∧ isSymbol r.symbol = true ∧
        r.production.all isSymbol = true := by
  simp only [isWritable, Bool.and_eq_true, Bool.not_eq_true',
    List.isEmpty_eq_false_iff, List.all_cons]

/- The line of a rule. -/
def plainRule
    (r : Rule Char) : List Char :=
  r.symbol :: '=' :: '>' :: (r.production ++ ['\n'])

theorem plainRule_mem
    {r : Rule Char}
    (hWritable : isWritable r = true) :
    plainRule r ∈ ruleLineOf r := by
  rcases (isWritable_iff r).mp hWritable with
    ⟨hNotNil, hSymbol, hSymbols⟩
  exact ⟨hNotNil,
    mem_prod_runsOf_cons
      (append_mem_prod_cons (mem_symbolOf hSymbol)
        (mem_prod_runsOf_cons
          (append_mem_prod_cons (a := ['=', '>']) rfl
            (append_mem_prod_cons (mem_symbolsOf hSymbols)
              (mem_prod_runsOf_cons feed_mem_newline)))))⟩

------------------------------------------------------------
-- Files
------------------------------------------------------------

/- Lines of settings and of rules, with a header each. -/
theorem sections_mem_fileOf
    {settings : List Setting}
    {lines : List Char}
    {rules : List (Rule Char)}
    (hLines : lines ∈ (settings.map settingLineOf).prod)
    (hRules : rules.all isWritable = true)
    (hNotNil : rules ≠ []) :
    plainHeader "render" ++ (lines ++
        (plainHeader "rules" ++ rules.flatMap plainRule)) ∈
      fileOf settings rules := by
  have hRuleLines := flatMap_mem_prod plainRule id ruleLineOf
    rules fun r hMember =>
      plainRule_mem (List.all_eq_true.mp hRules r hMember)
  have hBlanks : [] ∈ [blanks].prod :=
    (mem_prod_singleton_iff blanks []).mpr
      (nil_mem_runsOf Text.isBlank)
  rw [List.map_id] at hRuleLines
  refine ⟨hNotNil,
    append_mem_prod_cons (plainHeader_mem "render")
      (append_mem_prod_cons hLines
        (append_mem_prod_cons (plainHeader_mem "rules")
          ?_))⟩
  rw [← List.append_nil (rules.flatMap plainRule)]
  exact append_mem_prod_cons hRuleLines hBlanks

/- The file with given colors and rules. -/
def plain
    (colors : List (TextKey × String))
    (rules : List (Rule Char)) : List Char :=
  plainHeader "render" ++ (colors.flatMap plainColor ++
    (plainHeader "rules" ++ rules.flatMap plainRule))

theorem plain_mem_fileOf
    (colors : List (TextKey × String))
    (rules : List (Rule Char))
    (hColors : colors.all (fun c => isWord c.2) = true)
    (hRules : rules.all isWritable = true)
    (hNotNil : rules ≠ []) :
    plain colors rules ∈
      fileOf (colors.map fun c => .text c.1 c.2) rules :=
  sections_mem_fileOf
    (flatMap_mem_prod plainColor
      (fun c => Setting.text c.1 c.2) settingLineOf colors
      fun c hMember =>
        plainColor_mem (List.all_eq_true.mp hColors c hMember))
    hRules hNotNil

/- A file of the format is read to its settings and rules. -/
theorem ofFile_of_mem_fileOf
    (path : String)
    {source : List Char}
    {settings : List Setting}
    {rules : List (Rule Char)}
    (hMember : source ∈ fileOf settings rules) :
    LSystem.ofFile path
        (.ok (String.ofList source).toUTF8) =
      .ok ⟨.ofPairs rules, .ofSettings settings⟩ := by
  rw [LSystem.ofFile_toUTF8, String.toList_ofList,
    LSystem.parse_of_mem_fileOf hMember]
  rfl

/- The plainest file is read to its colors and rules. -/
theorem ofFile_plain
    (path : String)
    (colors : List (TextKey × String))
    (rules : List (Rule Char))
    (hColors : colors.all (fun c => isWord c.2) = true)
    (hRules : rules.all isWritable = true)
    (hNotNil : rules ≠ []) :
    LSystem.ofFile path
        (.ok (String.ofList (plain colors rules)).toUTF8) =
      .ok
        ⟨.ofPairs rules,
          .ofSettings (colors.map fun c => .text c.1 c.2)⟩ :=
  ofFile_of_mem_fileOf path
    (plain_mem_fileOf colors rules hColors hRules hNotNil)

/- It is read from a tree in which it is the only file. -/
theorem ofFile_only_plain
    (rules : List (Rule Char))
    (hRules : rules.all isWritable = true)
    (hNotNil : rules ≠ []) :
    LSystem.ofFile "g"
        (Files.Tree.read
          ⟨[], [(["g"],
            .file (String.ofList (plain [] rules)).toUTF8)]⟩
          "g") =
      .ok ⟨.ofPairs rules, {}⟩ :=
  ofFile_plain "g" [] rules rfl hRules hNotNil

end FileFormat

end Lindenmayer
