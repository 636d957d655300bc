import Lindenmayer.Proofs.Grammar.Lexical

/-
  The lines of a grammar, from the right to the left.

  The row of a line ends with a value and a line end.  Each
  part in front of them keeps that a row reads the lines of a
  language, and so do the blanks in front of the whole line.

  Key definitions include:
    * `Parser.ReadsValue`
    * `Row.ReadsLine`
    * `Row.afterBlanks`

  Correctness is proven by:
    * `Parser.ReadsValue.line`
    * `Row.ReadsLine.literal`
    * `Row.ReadsLine.symbol`
    * `Row.ReadsLine.reads`
-/

------------------------------------------------------------
-- Gaps and Blanks
------------------------------------------------------------

namespace Lindenmayer

open Text (isBlank isGap runsOf StartsOutside)

/- A text that starts with no blank starts with no gap. -/
theorem Text.StartsOutside.isGap
    {t : List Char}
    (hStart : StartsOutside isBlank t) :
    StartsOutside Text.isGap t := by
  rcases hStart with ⟨c, hHead, hBlank⟩
  exact ⟨c, hHead, Grammar.isGap_of_not_isBlank hBlank⟩

namespace Row

theorem skipGap_skipGap
    (text : List Char) :
    skipGap (skipGap text) = skipGap text :=
  Text.dropWhile_dropWhile isGap text

theorem exists_gap_skipGap
    (text : List Char) :
    ∃ g ∈ FileFormat.gaps, text = g ++ skipGap text :=
  Text.exists_runsOf_dropWhile isGap text

/- A gap before a text is skipped with those of the text. -/
theorem skipGap_append
    {g : List Char}
    (hGap : g ∈ FileFormat.gaps)
    (text : List Char) :
    skipGap (g ++ text) = skipGap text :=
  List.dropWhile_append_of_pos hGap

/- Where blanks were skipped there is no gap left. -/
theorem skipGap_trimLeft
    (text : List Char) :
    skipGap (Text.trimLeft text) = Text.trimLeft text := by
  apply Text.dropWhile_eq_self_of_head?
  intro c hHead
  exact Grammar.isGap_of_not_isBlank
    (Text.head?_trimLeft text c hHead)

theorem trimLeft_skipGap
    (text : List Char) :
    Text.trimLeft (skipGap text) = Text.trimLeft text := by
  rcases exists_gap_skipGap text with ⟨g, hGap, hText⟩
  have hBlank := Grammar.mem_blanks_of_mem_gaps hGap
  conv_rhs => rw [hText, Text.trimLeft,
    List.dropWhile_append_of_pos hBlank]
  rfl

end Row

------------------------------------------------------------
-- Values and the Lines They End
------------------------------------------------------------

/-
  A parser reads the value of a line when its runs take the
  value with the gap behind it, and when it reads every value
  before a line end.
-/
structure Parser.ReadsValue
    {α β : Type}
    (p : Parser α)
    (value : α → β)
    (valueOf : β → Language Char) : Prop where
  exists_of_run :
    ∀ text a rest,
      p.run (Row.skipGap text) = .ok (a, rest) →
      ∃ t ∈ FileFormat.gaps * valueOf (value a),
        text = t ++ Row.skipGap rest
  run_of_mem :
    ∀ b, ∀ t ∈ FileFormat.gaps * valueOf b, ∀ text tail,
      (∀ c ∈ tail.head?, Grammar.isText c = false) →
      Row.skipGap text = Row.skipGap (t ++ tail) →
      ∃ a rest, p.run (Row.skipGap text) = .ok (a, rest) ∧
        value a = b ∧ Row.skipGap rest = tail

/-
  A row reads lines when its runs take a line, and when it
  reads every line whatever follows, but for blanks behind
  the line.  Gaps in front are no part of the line.
-/
structure Row.ReadsLine
    {α β : Type}
    (r : Row α)
    (value : α → β)
    (lineOf : β → Language Char) : Prop where
  exists_of_run :
    ∀ text a rest, r.run Row.skipGap text = .ok (a, rest) →
      ∃ t ∈ FileFormat.gaps * lineOf (value a),
        text = t ++ rest
  run_of_mem :
    ∀ b, ∀ t ∈ FileFormat.gaps * lineOf b, ∀ text tail,
      Row.skipGap text = Row.skipGap (t ++ tail) →
      ∃ a rest, r.run Row.skipGap text = .ok (a, rest) ∧
        value a = b ∧
        Text.trimLeft rest = Text.trimLeft tail

/- Where a line end stands, a text value ends. -/
theorem FileFormat.isText_of_newline
    {e : List Char}
    (hEnd : e ∈ FileFormat.newline)
    (tail : List Char) :
    ∀ c ∈ (e ++ tail).head?, Grammar.isText c = false := by
  intro c hHead
  rcases hEnd with (rfl | rfl) | rfl <;>
  · cases hHead
    rfl

/- A value and a line end make a line. -/
theorem Parser.ReadsValue.line
    {α β : Type}
    {p : Parser α}
    {value : α → β}
    {valueOf : β → Language Char}
    (hReads : p.ReadsValue value valueOf) :
    (Row.cons p (.cons Grammar.newline .nil)).ReadsLine
      (fun a => value a.1)
      (fun b => valueOf b * FileFormat.newline) where
  exists_of_run := by
    intro text a rest hRun
    rcases a with ⟨a, s, _⟩
    have hParts :
        ∃ mid,
          p.run (Row.skipGap text) = .ok (a, mid) ∧
          Grammar.newline.run (Row.skipGap mid) =
            .ok (s, rest) := by
      simpa using hRun
    rcases hParts with ⟨mid, hValue, hEnd⟩
    rcases hReads.exists_of_run text a mid hValue with
      ⟨t, hText, hSplit⟩
    rcases Grammar.exists_of_run_newline hEnd with
      ⟨e, hNewline, hMid⟩
    refine ⟨t ++ e, ?_, ?_⟩
    · rw [← mul_assoc]
      exact Language.append_mem_mul hText hNewline
    · rw [hSplit, hMid, List.append_assoc]
  run_of_mem := by
    intro b t hMember text tail hText
    rw [← mul_assoc] at hMember
    rcases Language.mem_mul.mp hMember with
      ⟨v, hPart, e, hEnd, rfl⟩
    rw [List.append_assoc] at hText
    rcases hReads.run_of_mem b v hPart text (e ++ tail)
        (FileFormat.isText_of_newline hEnd tail) hText with
      ⟨a, mid, hRun, hValue, hMid⟩
    rcases Grammar.run_newline_of_mem hEnd tail with
      ⟨s, rest, hNewline, hRest⟩
    refine ⟨(a, s, ()), rest, ?_, hValue, hRest⟩
    rw [← hMid] at hNewline
    simpa using ⟨mid, hRun, hNewline⟩

------------------------------------------------------------
-- Parts and Blanks in Front
------------------------------------------------------------

namespace Row

namespace ReadsLine

variable {α β : Type}
variable {r : Row α}
variable {value : α → β}
variable {lineOf : β → Language Char}

/- A literal in front of a line makes a longer line. -/
theorem literal
    (hReads : r.ReadsLine value lineOf)
    {s : String}
    (hStart : StartsOutside isBlank s.toList) :
    (Row.cons (.literal s) r).ReadsLine
      (fun a => value a.2)
      (fun b =>
        FileFormat.word s * (FileFormat.gaps * lineOf b)) where
  exists_of_run := by
    intro text a rest hRun
    rcases a with ⟨w, a⟩
    rw [run_cons_iff] at hRun
    rcases hRun with ⟨mid, hLiteral, hRow⟩
    rw [Parser.run_literal_iff] at hLiteral
    rcases hReads.exists_of_run mid a rest hRow with
      ⟨t, hLine, rfl⟩
    rcases exists_gap_skipGap text with ⟨g, hGap, hText⟩
    refine ⟨g ++ (s.toList ++ t),
      Language.append_mem_mul hGap
        (Language.append_mem_mul rfl hLine), ?_⟩
    rw [hText, hLiteral.2]
    simp only [List.append_assoc]
  run_of_mem := by
    intro b t hMember text tail hText
    rcases Language.mem_mul.mp hMember with
      ⟨g, hGap, _, hRest, rfl⟩
    rcases Language.mem_mul.mp hRest with
      ⟨_, rfl, t, hLine, rfl⟩
    rcases hReads.run_of_mem b t hLine (t ++ tail) tail rfl
      with ⟨a, rest, hRow, hValue, hBehind⟩
    refine ⟨(s, a), rest, ?_, hValue, hBehind⟩
    rw [run_cons_iff]
    refine ⟨t ++ tail, ?_, hRow⟩
    rw [Parser.run_literal_iff]
    refine ⟨rfl, ?_⟩
    rw [hText, List.append_assoc, List.append_assoc]
    exact (hStart.isGap.append (t ++ tail)).dropWhile_append
      hGap

/- A symbol in front of a line makes a longer line. -/
theorem symbol
    (hReads : r.ReadsLine value lineOf) :
    (Row.cons Grammar.symbol r).ReadsLine
      (fun a => (a.1, value a.2))
      (fun b =>
        FileFormat.symbolOf b.1 *
          (FileFormat.gaps * lineOf b.2)) where
  exists_of_run := by
    intro text a rest hRun
    rcases a with ⟨c, a⟩
    rw [run_cons_iff] at hRun
    rcases hRun with ⟨mid, hSymbol, hRow⟩
    rcases exists_gap_skipGap text with ⟨g, hGap, hText⟩
    rcases Grammar.symbol_reads.sound hSymbol hGap with
      ⟨t, hFirst, g', hGap', hSplit⟩
    rcases hReads.exists_of_run mid a rest hRow with
      ⟨t', hLine, rfl⟩
    refine ⟨t ++ (g' ++ t'), ?_, ?_⟩
    · rw [← mul_assoc]
      exact Language.append_mem_mul hFirst
        (Text.append_mem_runsOf_mul hGap' hLine)
    · rw [hText, hSplit]
      simp only [List.append_assoc]
  run_of_mem := by
    intro b t hMember text tail hText
    rw [← mul_assoc] at hMember
    rcases Language.mem_mul.mp hMember with
      ⟨t, hFirst, t', hLine, rfl⟩
    rw [List.append_assoc] at hText
    rcases Grammar.symbol_reads.complete hFirst hText with
      ⟨mid, hSymbol, hMid⟩
    rcases hReads.run_of_mem b.2 t' hLine mid tail hMid with
      ⟨a, rest, hRow, hValue, hBehind⟩
    refine ⟨(b.1, a), rest, ?_, ?_, hBehind⟩
    · rw [run_cons_iff]
      refine ⟨mid, ?_, hRow⟩
      rw [← Grammar.symbol_reads.run_dropWhile] at hSymbol
      exact hSymbol
    · rw [hValue]

end ReadsLine

variable {α β γ δ : Type}

/- The parser of a line with blanks before it. -/
def afterBlanks
    (r : Row α)
    (f : α → γ)
    (g : γ → δ) : Parser δ :=
  (Row.cons .skipBlanks
    (.cons (r.spaced fun a => .ok (f a)) .nil)).sequence
    fun q => .ok (g q.2.1)

/- Blanks are skipped, then the row runs. -/
theorem run_afterBlanks_iff
    (r : Row α)
    (f : α → γ)
    (g : γ → δ)
    (text rest : List Char)
    (d : δ) :
    (r.afterBlanks f g).run text = .ok (d, rest) ↔
      ∃ a left,
        r.run skipGap (Text.trimLeft text) = .ok (a, left) ∧
        d = g (f a) ∧ rest = skipGap left := by
  have hParts :
      (r.afterBlanks f g).run text = .ok (d, rest) ↔
        ∃ a,
          (∃ left,
            r.run skipGap (Text.trimLeft text) =
                .ok (a, left) ∧
              rest = skipGap left) ∧
          g (f a) = d := by
    simp [afterBlanks]
  rw [hParts]
  constructor
  · rintro ⟨a, ⟨left, hRow, hRest⟩, hValue⟩
    exact ⟨a, left, hRow, hValue.symm, hRest⟩
  · rintro ⟨a, left, hRow, hValue, hRest⟩
    exact ⟨a, ⟨left, hRow, hRest⟩, hValue.symm⟩

/- Blanks in front make no difference. -/
theorem run_afterBlanks_dropWhile
    (r : Row α)
    (f : α → γ)
    (g : γ → δ)
    (text : List Char) :
    (r.afterBlanks f g).run (text.dropWhile isBlank) =
      (r.afterBlanks f g).run text := by
  simp only [afterBlanks, sequence, cons, id_eq,
    Parser.skipBlanks, Text.trimLeft,
    Text.dropWhile_dropWhile]

/- A row that fails after the blanks fails by its error. -/
theorem run_afterBlanks_error
    (r : Row α)
    (f : α → γ)
    (g : γ → δ)
    (text : List Char)
    (e : Failure)
    (hError :
      r.run skipGap (Text.trimLeft text) = .error e) :
    (r.afterBlanks f g).run text = .error e := by
  simp only [afterBlanks, sequence, cons, id_eq,
    Parser.skipBlanks, spaced, hError]

/- Where its first word does not stand, a line fails by it. -/
theorem run_afterBlanks_literal
    {s : String}
    {r : Row α}
    {f : String × α → γ}
    {g : γ → δ}
    {text : List Char}
    (hWord : ¬ s.toList <+: Text.trimLeft text) :
    ((cons (.literal s) r).afterBlanks f g).run text =
      .error (.parse (.expectedText s)) := by
  apply run_afterBlanks_error
  simp only [cons, skipGap_trimLeft,
    Parser.run_literal_error hWord]

/-
  A row of lines, after blanks, reads the lines with blanks
  in front as texts for what is built of their values.
-/
theorem ReadsLine.reads
    {r : Row α}
    {value : α → β}
    {lineOf : β → Language Char}
    (hReads : r.ReadsLine value lineOf)
    (hStart : ∀ b, ∀ t ∈ lineOf b, StartsOutside isBlank t)
    (f : α → γ)
    (g : γ → δ)
    (build : β → δ)
    (hBuild : ∀ a, g (f a) = build (value a))
    (standsFor : δ → Language Char)
    (hStands :
      ∀ d t, t ∈ standsFor d ↔
        ∃ b, d = build b ∧
          t ∈ FileFormat.blanks * lineOf b) :
    (r.afterBlanks f g).Reads isBlank standsFor where
  run_dropWhile := run_afterBlanks_dropWhile r f g
  ne_nil := by
    intro d t hMember
    rcases (hStands d t).mp hMember with ⟨b, _, hLine⟩
    rcases Language.mem_mul.mp hLine with
      ⟨before, _, t, hText, rfl⟩
    have hNotNil := (hStart b t hText).ne_nil
    simp [hNotNil]
  append_mem := by
    intro d before hBlank t hMember
    rcases (hStands d t).mp hMember with ⟨b, hValue, hLine⟩
    exact (hStands d _).mpr
      ⟨b, hValue, Text.append_mem_runsOf_mul hBlank hLine⟩
  exists_of_run := by
    intro text d rest hRun
    rcases (run_afterBlanks_iff r f g text rest d).mp hRun
      with ⟨a, left, hRow, hValue, hRest⟩
    rcases hReads.exists_of_run _ a left hRow with
      ⟨t, hMember, hSplit⟩
    rcases Language.mem_mul.mp hMember with
      ⟨gap, hGap, t, hLine, rfl⟩
    rcases Text.exists_runsOf_dropWhile isBlank text with
      ⟨before, hBlank, hText⟩
    rcases exists_gap_skipGap left with
      ⟨behind, hBehind, hLeft⟩
    refine ⟨before ++ (gap ++ t), ?_, behind,
      Grammar.mem_blanks_of_mem_gaps hBehind, ?_⟩
    · rw [hStands, hValue, hBuild]
      refine ⟨value a, rfl, ?_⟩
      exact Text.append_mem_runsOf_mul hBlank
        (Language.append_mem_mul
          (Grammar.mem_blanks_of_mem_gaps hGap) hLine)
    · rw [Text.trimLeft] at hSplit
      rw [hRest, ← hLeft, List.append_assoc, ← hSplit]
      exact hText
  run_of_mem := by
    intro d t hMember tail
    rcases (hStands d t).mp hMember with ⟨b, rfl, hLine⟩
    rcases Language.mem_mul.mp hLine with
      ⟨before, hBlank, t, hText, rfl⟩
    have hTrimmed :
        Text.trimLeft (before ++ t ++ tail) = t ++ tail := by
      rw [List.append_assoc]
      exact ((hStart b t hText).append tail).dropWhile_append
        hBlank
    have hGaps : [] ++ t ∈ FileFormat.gaps * lineOf b :=
      Language.append_mem_mul
        (fun _ hNone => absurd hNone List.not_mem_nil) hText
    rcases hReads.run_of_mem b t hGaps (t ++ tail) tail rfl
      with ⟨a, left, hRow, hValue, hBehind⟩
    refine ⟨skipGap left, ?_, ?_⟩
    · rw [run_afterBlanks_iff, hTrimmed]
      refine ⟨a, left, hRow, ?_, rfl⟩
      rw [hBuild, hValue]
    · exact (trimLeft_skipGap left).trans hBehind

end Row

end Lindenmayer
