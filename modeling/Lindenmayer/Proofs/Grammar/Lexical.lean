import Lindenmayer.Grammar.Lexical
import Lindenmayer.Proofs.Decimal.PlainNumeral
import Lindenmayer.Proofs.Grammar.FileFormat
import Lindenmayer.Proofs.Parser.Reading

/-
  The smallest parts of a grammar are read as the file format
  has them: line ends, decimals, texts and symbols.

  Correctness is proven by:
    * `Grammar.exists_of_run_newline`
    * `Grammar.run_newline_of_mem`
    * `Grammar.exists_of_run_decimal`
    * `Grammar.run_decimal_of_mem`
    * `Grammar.exists_of_run_text`
    * `Grammar.run_text_of_mem`
    * `Grammar.symbol_reads`
-/

------------------------------------------------------------
-- Line Ends
------------------------------------------------------------

namespace Lindenmayer

namespace Grammar

open Text (runsOf)

theorem mem_blanks_of_mem_gaps
    {g : List Char}
    (hGap : g ∈ FileFormat.gaps) :
    g ∈ FileFormat.blanks := by
  intro c hMember
  exact Text.isBlank_of_isGap c (hGap c hMember)

theorem isGap_of_not_isBlank
    {c : Char}
    (hBlank : Text.isBlank c = false) :
    Text.isGap c = false := by
  cases hGap : Text.isGap c with
  | false => rfl
  | true =>
      rw [Text.isBlank_of_isGap c hGap] at hBlank
      cases hBlank

/- A line end that is read is one of the three. -/
theorem exists_of_run_newline
    {text rest : List Char}
    {s : String}
    (hRun : newline.run text = .ok (s, rest)) :
    ∃ t ∈ FileFormat.newline, text = t ++ rest := by
  rcases (Parser.firstMatch_eq_ok_iff text _ (s, rest)).mp
      hRun with
    ⟨before, p, later, hSplit, hMatch, _⟩
  have hMember :
      p ∈ [Parser.literal "\r\n", .literal "\n",
        .literal "\r"] := by
    rw [hSplit]
    simp
  simp only [List.mem_cons, List.not_mem_nil, or_false]
    at hMember
  rcases hMember with rfl | rfl | rfl
  · exact ⟨_, Or.inl (Or.inl rfl),
      ((Parser.run_literal_iff _ _ _ _).mp hMatch).2⟩
  · exact ⟨_, Or.inl (Or.inr rfl),
      ((Parser.run_literal_iff _ _ _ _).mp hMatch).2⟩
  · exact ⟨_, Or.inr rfl,
      ((Parser.run_literal_iff _ _ _ _).mp hMatch).2⟩

/-
  Every line end is read.  A carriage return may take a line
  feed behind it along, which is a blank.
-/
theorem run_newline_of_mem
    {t : List Char}
    (hMember : t ∈ FileFormat.newline)
    (tail : List Char) :
    ∃ s rest, newline.run (t ++ tail) = .ok (s, rest) ∧
      Text.trimLeft rest = Text.trimLeft tail := by
  rcases hMember with (rfl | rfl) | rfl
  · exact ⟨"\r\n", tail, rfl, rfl⟩
  · exact ⟨"\n", tail, rfl, rfl⟩
  · cases tail with
    | nil => exact ⟨"\r", [], rfl, rfl⟩
    | cons c tail =>
        by_cases hFeed : c = '\n'
        · subst hFeed
          exact ⟨"\r\n", tail, rfl, rfl⟩
        · refine ⟨"\r", c :: tail, ?_, rfl⟩
          simp [newline, Parser.oneOf, Parser.firstMatch,
            Parser.literal, List.isPrefixOf?, Ne.symm hFeed]

------------------------------------------------------------
-- Decimals
------------------------------------------------------------

/- Digits are the nonempty texts of the class of digits. -/
theorem mem_digits_iff
    (t : List Char) :
    t ∈ FileFormat.digits ↔ t ≠ [] ∧ t ∈ runsOf isDigit := by
  change _ ∧ (∀ c ∈ t, _) ↔ _ ∧ ∀ c ∈ t, isDigit c = true
  simp [isDigit]

theorem isDigit_of_mem
    {t : List Char}
    (hDigits : t ∈ runsOf isDigit) :
    ∀ d ∈ t, d.isDigit = true := by
  intro d hMember
  have hDigit := hDigits d hMember
  simp only [isDigit, Bool.and_eq_true,
    decide_eq_true_eq] at hDigit
  simp only [Char.isDigit, Bool.and_eq_true,
    decide_eq_true_eq]
  exact hDigit

theorem float_eq_ok_iff
    (s : String)
    (x : Float) :
    Conversion.float s = .ok x ↔
      Numeral.float? s = some x := by
  rw [Conversion.float]
  cases Numeral.float? s <;> simp

/- Digits, a point, and digits. -/
def numeral : Parser (List Char × Char × List Char × Unit) :=
  (Row.cons (digit.atLeast 1)
    (.cons (.char '.')
      (.cons (digit.atLeast 1) .nil))).sequence .ok

theorem decimal_eq_tryMap :
    decimal = numeral.recognize.tryMap "float" Conversion.float :=
  rfl

/-
  A run over digits, a point and digits takes as many digits
  as there are on either side.
-/
theorem run_numeral_iff
    (text rest : List Char)
    (s : String) :
    numeral.recognize.run text = .ok (s, rest) ↔
      ∃ whole fraction,
        whole ≠ [] ∧ fraction ≠ [] ∧
        text = whole ++ '.' :: fraction ++ rest ∧
        whole = text.takeWhile isDigit ∧
        fraction = (fraction ++ rest).takeWhile isDigit ∧
        s = String.ofList (whole ++ '.' :: fraction) := by
  simp only [numeral, digit, Parser.run_recognize_iff,
    Row.run_sequence_iff]
  constructor
  · intro hRun
    rcases hRun with
      ⟨_, ⟨⟨whole, _, fraction, _⟩, hRow, _⟩, rfl⟩
    simp only [Row.run_cons_iff, Row.run_nil_iff, id_eq,
      Parser.run_atLeast_anyChar_iff, Parser.run_char_iff]
      at hRow
    rcases hRow with
      ⟨_, ⟨hWhole, hTaken, rfl⟩, left, ⟨_, hPoint⟩, _,
        ⟨hFraction, hTaken', hDropped⟩, rfl⟩
    have hLeft : left = fraction ++ rest := by
      rw [hTaken', hDropped,
        List.takeWhile_append_dropWhile]
    have hText : text = whole ++ '.' :: fraction ++ rest := by
      rw [List.append_assoc, List.cons_append, ← hLeft,
        ← hPoint, hTaken, List.takeWhile_append_dropWhile]
    refine ⟨whole, fraction, hWhole, hFraction, hText, hTaken,
      by rw [← hLeft]; exact hTaken', ?_⟩
    rw [hText, Parser.take_append_sub]
  · intro hParts
    rcases hParts with
      ⟨whole, fraction, hWhole, hFraction, hText, hTaken,
        hTaken', rfl⟩
    have hPoint :
        text.dropWhile isDigit = '.' :: (fraction ++ rest) := by
      have hAll := text.takeWhile_append_dropWhile (p := isDigit)
      rw [← hTaken] at hAll
      apply List.append_cancel_left (hAll.trans _)
      rw [hText, List.append_assoc, List.cons_append]
    have hRest :
        rest = (fraction ++ rest).dropWhile isDigit := by
      have hAll :=
        (fraction ++ rest).takeWhile_append_dropWhile
          (p := isDigit)
      rw [← hTaken'] at hAll
      exact (List.append_cancel_left hAll).symm
    refine ⟨_, ⟨⟨whole, '.', fraction, ()⟩, ?_, rfl⟩, ?_⟩
    · simp only [Row.run_cons_iff, Row.run_nil_iff, id_eq,
        Parser.run_atLeast_anyChar_iff, Parser.run_char_iff]
      exact
        ⟨_, ⟨hWhole, hTaken, rfl⟩, _, ⟨trivial, hPoint⟩, rest,
          ⟨hFraction, hTaken', hRest⟩, rfl⟩
    · rw [hText, Parser.take_append_sub]

/- A decimal is read with the number it is converted to. -/
theorem run_decimal_iff
    (text rest : List Char)
    (x : Float) :
    decimal.run text = .ok (x, rest) ↔
      ∃ whole fraction,
        whole ≠ [] ∧ fraction ≠ [] ∧
        text = whole ++ '.' :: fraction ++ rest ∧
        whole = text.takeWhile isDigit ∧
        fraction = (fraction ++ rest).takeWhile isDigit ∧
        Numeral.float?
          (String.ofList (whole ++ '.' :: fraction)) =
            some x := by
  simp only [decimal_eq_tryMap, Parser.run_tryMap_iff,
    run_numeral_iff, float_eq_ok_iff]
  constructor
  · intro hRun
    rcases hRun with
      ⟨_, ⟨whole, fraction, hWhole, hFraction, hText, hTaken,
        hTaken', rfl⟩, hFloat⟩
    exact ⟨whole, fraction, hWhole, hFraction, hText, hTaken,
      hTaken', hFloat⟩
  · intro hParts
    rcases hParts with
      ⟨whole, fraction, hWhole, hFraction, hText, hTaken,
        hTaken', hFloat⟩
    exact ⟨_, ⟨whole, fraction, hWhole, hFraction, hText,
      hTaken, hTaken', rfl⟩, hFloat⟩

/- A decimal that is read is one of its number. -/
theorem exists_of_run_decimal
    {text rest : List Char}
    {x : Float}
    (hRun : decimal.run text = .ok (x, rest)) :
    ∃ t ∈ FileFormat.decimalsOf x, text = t ++ rest := by
  rcases (run_decimal_iff text rest x).mp hRun with
    ⟨whole, fraction, hWhole, hFraction, hText, hTaken,
      hTaken', hFloat⟩
  have hDigits := Text.takeWhile_mem_runsOf isDigit
  refine ⟨whole ++ '.' :: fraction, ⟨?_, hFloat⟩, hText⟩
  apply Text.append_mem_prod_cons
  · exact (mem_digits_iff whole).mpr
      ⟨hWhole, hTaken ▸ hDigits text⟩
  · have hPoint : ['.'] ∈ FileFormat.word "." := rfl
    apply Text.append_mem_prod_cons hPoint
    rw [Text.mem_prod_singleton_iff]
    exact (mem_digits_iff fraction).mpr
      ⟨hFraction, hTaken' ▸ hDigits (fraction ++ rest)⟩

/- A decimal is read where no digit follows it. -/
theorem run_decimal_of_mem
    {t tail : List Char}
    {x : Float}
    (hMember : t ∈ FileFormat.decimalsOf x)
    (hTail : ∀ c ∈ tail.head?, isDigit c = false) :
    decimal.run (t ++ tail) = .ok (x, tail) := by
  rcases hMember with ⟨hDecimal, hFloat⟩
  rw [FileFormat.decimals, Text.mem_prod_cons_iff]
    at hDecimal
  rcases hDecimal with ⟨whole, hWhole, _, hRest, rfl⟩
  rw [Text.mem_prod_cons_iff] at hRest
  rcases hRest with ⟨_, rfl, fraction, hFraction, rfl⟩
  rw [Text.mem_prod_singleton_iff] at hFraction
  rw [mem_digits_iff] at hWhole hFraction
  rw [run_decimal_iff]
  refine ⟨whole, fraction, hWhole.1, hFraction.1, rfl, ?_,
    ?_, hFloat⟩
  · have hPoint :
        ∀ c ∈ ('.' :: (fraction ++ tail)).head?,
          isDigit c = false := by
      simp [isDigit]
    rw [List.append_assoc]
    exact (Text.takeWhile_append_of_runsOf hWhole.2
      hPoint).symm
  · exact (Text.takeWhile_append_of_runsOf hFraction.2
      hTail).symm

------------------------------------------------------------
-- Texts
------------------------------------------------------------

theorem isText_iff
    (c : Char) :
    isText c = true ↔ c ≠ '\r' ∧ c ≠ '\n' := by
  simp [isText]

theorem isText_eq_false_iff
    (c : Char) :
    isText c = false ↔ c = '\r' ∨ c = '\n' := by
  simp only [isText, Bool.not_eq_false', Bool.or_eq_true,
    beq_iff_eq]

/- A run over a text takes all up to the line end. -/
theorem run_text_iff
    (text rest : List Char)
    (s : String) :
    Grammar.text.run text = .ok (s, rest) ↔
      ∃ t, t ≠ [] ∧ text = t ++ rest ∧
        t = text.takeWhile isText ∧
        rest = text.dropWhile isText ∧
        s = String.ofList (Text.trim t) := by
  simp only [Grammar.text]
  rw [Parser.run_map_iff]
  simp only [Parser.run_recognize_iff,
    Parser.run_atLeast_anyChar_iff]
  constructor
  · intro hRun
    rcases hRun with
      ⟨_, ⟨t, ⟨hText, hTaken, hRest⟩, rfl⟩, hValue⟩
    have hSplit : text = t ++ rest := by
      rw [hTaken, hRest, List.takeWhile_append_dropWhile]
    refine ⟨t, hText, hSplit, hTaken, hRest, ?_⟩
    rw [hSplit, Parser.take_append_sub, Except.ok.injEq]
      at hValue
    rw [← hValue, String.toList_ofList]
  · intro hParts
    rcases hParts with ⟨t, hText, hSplit, hTaken, hRest, rfl⟩
    refine ⟨_, ⟨t, ⟨hText, hTaken, hRest⟩, rfl⟩, ?_⟩
    rw [hSplit, Parser.take_append_sub,
      String.toList_ofList]

/- A text that is read is one of its value. -/
theorem exists_of_run_text
    {text rest : List Char}
    {s : String}
    (hHead : ∀ c ∈ text.head?, Text.isGap c = false)
    (hRun : Grammar.text.run text = .ok (s, rest)) :
    ∃ t ∈ FileFormat.textsOf s, text = t ++ rest := by
  rcases (run_text_iff text rest s).mp hRun with
    ⟨t, hText, hSplit, hTaken, _, hValue⟩
  refine ⟨t, ⟨⟨hText, ?_, ?_⟩, hValue.symm⟩, hSplit⟩
  · intro c hMember
    rw [hTaken] at hMember
    exact (isText_iff c).mp (List.mem_takeWhile_imp hMember)
  · intro c hMember
    have hFirst : c ∈ text.head? := by
      rw [hSplit]
      exact List.mem_head?_append_of_mem_head? hMember
    have hGap := hHead c hFirst
    simpa [Text.isGap] using hGap

/- A text is read where its line ends. -/
theorem run_text_of_mem
    {t tail : List Char}
    {s : String}
    (hMember : t ∈ FileFormat.textsOf s)
    (hTail : ∀ c ∈ tail.head?, isText c = false) :
    Grammar.text.run (t ++ tail) = .ok (s, tail) := by
  rcases hMember with ⟨⟨hText, hLine, _⟩, hValue⟩
  have hRun : t ∈ runsOf isText := by
    intro c hMember
    exact (isText_iff c).mpr (hLine c hMember)
  rw [run_text_iff]
  exact
    ⟨t, hText, rfl,
      (Text.takeWhile_append_of_runsOf hRun hTail).symm,
      (Text.dropWhile_append_of_runsOf hRun hTail).symm,
      hValue.symm⟩

------------------------------------------------------------
-- Symbols
------------------------------------------------------------

/- Symbols are the characters of visible ASCII. -/
theorem isSymbol_iff
    (c : Char) :
    isSymbol c = true ↔ 0x21 ≤ c.toNat ∧ c.toNat ≤ 0x7e := by
  simp only [isSymbol, Bool.and_eq_true, decide_eq_true_eq,
    Char.le_def, UInt32.le_iff_toNat_le]
  rfl

theorem isBlank_of_isSymbol
    (c : Char)
    (hSymbol : isSymbol c = true) :
    Text.isBlank c = false := by
  have hVisible := (isSymbol_iff c).mp hSymbol
  have hOutside :
      ∀ r ∈ Text.blanks.ranges, r.2 < 0x21 ∨ 0x7e < r.1 := by
    decide
  rw [← Bool.not_eq_true, Text.isBlank,
    CharClass.contains_iff]
  rintro ⟨r, hRange, hLow, hHigh⟩
  have hApart := hOutside r hRange
  omega

/- Gaps around a symbol are skipped. -/
theorem run_symbol_iff
    (text rest : List Char)
    (c : Char) :
    symbol.run text = .ok (c, rest) ↔
      isSymbol c = true ∧
        ∃ left, Row.skipGap text = c :: left ∧
          rest = Row.skipGap left := by
  have hParts :
      symbol.run text = .ok (c, rest) ↔
        ∃ left,
          (isSymbol c = true ∧ Row.skipGap text = c :: left) ∧
          rest = Row.skipGap left := by
    simp [symbol]
  rw [hParts]
  simp only [and_assoc, exists_and_left]

/- Where no symbol follows the gaps, the parser fails. -/
theorem run_symbol_of_not_symbol
    (text : List Char)
    (hHead :
      ∀ c ∈ (Row.skipGap text).head?, isSymbol c = false) :
    ∃ e, symbol.run text = .error (.parse e) := by
  cases hText : Row.skipGap text with
  | nil =>
      refine ⟨.endOfInput, ?_⟩
      simp [symbol, Row.spaced, Row.cons, hText,
        Parser.anyChar]
  | cons c left =>
      have hSymbol : isSymbol c = false := by
        apply hHead
        simp [hText]
      refine ⟨.unexpectedCharacter, ?_⟩
      simp [symbol, Row.spaced, Row.cons, hText,
        Parser.anyChar, hSymbol]

/- The parser of symbols reads gaps and a symbol. -/
theorem symbol_reads :
    Parser.Reads Text.isGap symbol
      (fun c => FileFormat.gaps * FileFormat.symbolOf c) where
  run_dropWhile text := by
    simp only [symbol, Row.spaced, Row.cons, Row.skipGap,
      Text.dropWhile_dropWhile]
  ne_nil := by
    intro c t hMember
    rcases Language.mem_mul.mp hMember with
      ⟨g, _, _, ⟨_, _, rfl⟩, rfl⟩
    simp
  append_mem := by
    intro c g hGap t hMember
    rcases Language.mem_mul.mp hMember with
      ⟨g', hGap', s, hSymbol, rfl⟩
    rw [← List.append_assoc]
    exact Language.append_mem_mul
      (Text.append_mem_runsOf hGap hGap') hSymbol
  exists_of_run := by
    intro text c rest hRun
    rcases (run_symbol_iff text rest c).mp hRun with
      ⟨hSymbol, left, hText, rfl⟩
    rcases Text.exists_runsOf_dropWhile Text.isGap text with
      ⟨g, hGap, hBefore⟩
    rcases Text.exists_runsOf_dropWhile Text.isGap left with
      ⟨g', hGap', hBehind⟩
    refine ⟨g ++ [c], Language.append_mem_mul hGap ?_,
      g', hGap', ?_⟩
    · rcases (isSymbol_iff c).mp hSymbol with ⟨hLow, hHigh⟩
      exact ⟨hLow, hHigh, rfl⟩
    · rw [Row.skipGap] at hText
      rw [hText] at hBefore
      rw [List.append_assoc, List.singleton_append,
        Row.skipGap, ← hBehind]
      exact hBefore
  run_of_mem := by
    intro c t hMember tail
    rcases Language.mem_mul.mp hMember with
      ⟨g, hGap, _, ⟨hLow, hHigh, rfl⟩, rfl⟩
    have hSymbol := (isSymbol_iff c).mpr ⟨hLow, hHigh⟩
    refine ⟨Row.skipGap tail, ?_,
      Text.dropWhile_dropWhile Text.isGap tail⟩
    rw [run_symbol_iff]
    refine ⟨hSymbol, tail, ?_, rfl⟩
    rw [Row.skipGap, List.append_assoc]
    have hStart : Text.StartsOutside Text.isGap (c :: tail) :=
      ⟨c, rfl, isGap_of_not_isBlank
        (isBlank_of_isSymbol c hSymbol)⟩
    exact hStart.dropWhile_append hGap

end Grammar

end Lindenmayer
