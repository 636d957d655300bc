import Lindenmayer.Proofs.Grammar.Line

/-
  What may stand before the line end is read as a value: the
  colon of a header, the decimals and texts of settings, and
  the productions of rules.

  Key definitions include:
    * `FileFormat.productionOf`

  Correctness is proven by:
    * `Grammar.colon_readsValue`
    * `Grammar.decimal_readsValue`
    * `Grammar.text_readsValue`
    * `Grammar.production_readsValue`
-/

------------------------------------------------------------
-- Values of Headers and Settings
------------------------------------------------------------

namespace Lindenmayer

open Text (isGap runsOf StartsOutside)

namespace Grammar

theorem skipGap_of_lineEnd
    {tail : List Char}
    (hTail : ∀ c ∈ tail.head?, isText c = false) :
    Row.skipGap tail = tail := by
  apply Text.dropWhile_eq_self_of_head?
  intro c hHead
  rcases (isText_eq_false_iff c).mp (hTail c hHead) with
    rfl | rfl <;> rfl

/- The gap before a line end is skipped. -/
theorem skipGap_append_lineEnd
    {g tail : List Char}
    (hGap : g ∈ FileFormat.gaps)
    (hTail : ∀ c ∈ tail.head?, isText c = false) :
    Row.skipGap (g ++ tail) = tail :=
  (Row.skipGap_append hGap tail).trans
    (skipGap_of_lineEnd hTail)

/- Neither a gap nor a line end begins with a digit. -/
theorem not_digit_of_lineEnd
    {g tail : List Char}
    (hGap : g ∈ FileFormat.gaps)
    (hTail : ∀ c ∈ tail.head?, isText c = false) :
    ∀ c ∈ (g ++ tail).head?, isDigit c = false := by
  intro c hHead
  cases g with
  | nil =>
      rcases (isText_eq_false_iff c).mp (hTail c hHead) with
        rfl | rfl <;> rfl
  | cons d g =>
      cases hHead
      have hBlank := hGap c (by simp)
      simp only [isGap, Bool.or_eq_true, beq_iff_eq] at hBlank
      rcases hBlank with rfl | rfl <;> rfl

theorem not_symbol_of_lineEnd
    {tail : List Char}
    (hTail : ∀ c ∈ tail.head?, isText c = false) :
    ∀ c ∈ tail.head?, isSymbol c = false := by
  intro c hHead
  rcases (isText_eq_false_iff c).mp (hTail c hHead) with
    rfl | rfl <;> rfl

/- What stands between two gaps is a part with both gaps. -/
theorem exists_gap_mul_gap
    {l : Language Char}
    {text t rest : List Char}
    (hMember : t ∈ l)
    (hText : Row.skipGap text = t ++ rest) :
    ∃ t' ∈ FileFormat.gaps * (l * FileFormat.gaps),
      text = t' ++ Row.skipGap rest := by
  rcases Row.exists_gap_skipGap text with ⟨g, hGap, hBefore⟩
  rcases Row.exists_gap_skipGap rest with
    ⟨g', hGap', hBehind⟩
  refine ⟨g ++ (t ++ g'),
    Language.append_mem_mul hGap
      (Language.append_mem_mul hMember hGap'), ?_⟩
  rw [hText] at hBefore
  rw [List.append_assoc, List.append_assoc, ← hBehind]
  exact hBefore

/- The colon of a header is read, and the gap behind it. -/
theorem colon_readsValue :
    (Parser.char ':').ReadsValue (fun _ => ())
      (fun _ => FileFormat.word ":" * FileFormat.gaps) where
  exists_of_run := by
    intro text c rest hRun
    rw [Parser.run_char_iff] at hRun
    have hColon : [':'] ∈ FileFormat.word ":" := rfl
    exact exists_gap_mul_gap hColon hRun.2
  run_of_mem := by
    intro _ t hMember text tail hTail hText
    rcases Language.mem_mul.mp hMember with
      ⟨g, hGap, _, hRest, rfl⟩
    rcases Language.mem_mul.mp hRest with
      ⟨_, rfl, g', hGap', rfl⟩
    refine ⟨':', g' ++ tail, ?_, rfl,
      skipGap_append_lineEnd hGap' hTail⟩
    rw [Parser.run_char_iff, hText, List.append_assoc,
      Row.skipGap_append hGap]
    exact ⟨rfl, rfl⟩

/- A decimal starts with a digit, and so with no gap. -/
theorem startsOutside_of_mem_decimalsOf
    {t : List Char}
    {x : Float}
    (hMember : t ∈ FileFormat.decimalsOf x) :
    StartsOutside isGap t := by
  have hDecimal := hMember.1
  rw [FileFormat.decimals, Text.mem_prod_cons_iff]
    at hDecimal
  rcases hDecimal with ⟨whole, hWhole, _, _, rfl⟩
  rw [mem_digits_iff] at hWhole
  cases whole with
  | nil => exact absurd rfl hWhole.1
  | cons c whole =>
      have hDigit := hWhole.2 c (by simp)
      refine ⟨c, rfl, ?_⟩
      cases hGap : isGap c with
      | false => rfl
      | true =>
          simp only [isGap, Bool.or_eq_true, beq_iff_eq]
            at hGap
          rcases hGap with rfl | rfl <;> cases hDigit

/- A decimal is read, and the gap behind it. -/
theorem decimal_readsValue :
    decimal.ReadsValue id
      (fun x => FileFormat.decimalsOf x * FileFormat.gaps)
    where
  exists_of_run := by
    intro text x rest hRun
    rcases exists_of_run_decimal hRun with
      ⟨t, hDecimal, hSplit⟩
    exact exists_gap_mul_gap hDecimal hSplit
  run_of_mem := by
    intro x t hMember text tail hTail hText
    rcases Language.mem_mul.mp hMember with
      ⟨g, hGap, _, hRest, rfl⟩
    rcases Language.mem_mul.mp hRest with
      ⟨t, hDecimal, g', hGap', rfl⟩
    have hStart := startsOutside_of_mem_decimalsOf hDecimal
    refine ⟨x, g' ++ tail, ?_, rfl,
      skipGap_append_lineEnd hGap' hTail⟩
    rw [hText, List.append_assoc, List.append_assoc,
      Row.skipGap,
      (hStart.append (g' ++ tail)).dropWhile_append hGap]
    exact run_decimal_of_mem hDecimal
      (not_digit_of_lineEnd hGap' hTail)

theorem startsOutside_of_mem_texts
    {t : List Char}
    (hMember : t ∈ FileFormat.texts) :
    StartsOutside isGap t := by
  rcases hMember with ⟨hText, _, hHead⟩
  cases t with
  | nil => exact absurd rfl hText
  | cons c t =>
      refine ⟨c, rfl, ?_⟩
      have hNoGap := hHead c rfl
      simp [isGap, hNoGap]

/- A text is read up to the line end. -/
theorem text_readsValue :
    Grammar.text.ReadsValue id FileFormat.textsOf where
  exists_of_run := by
    intro text s rest hRun
    have hHead :
        ∀ c ∈ (Row.skipGap text).head?, isGap c = false :=
      Text.not_holds_head?_dropWhile isGap text
    rcases exists_of_run_text hHead hRun with
      ⟨t, hValue, hSplit⟩
    rcases Row.exists_gap_skipGap text with ⟨g, hGap, hText⟩
    rcases (run_text_iff _ rest s).mp hRun with
      ⟨_, _, _, _, hRest, _⟩
    have hEnd : ∀ c ∈ rest.head?, isText c = false := by
      rw [hRest]
      exact Text.not_holds_head?_dropWhile isText _
    refine ⟨g ++ t, Language.append_mem_mul hGap hValue, ?_⟩
    rw [skipGap_of_lineEnd hEnd, List.append_assoc, ← hSplit]
    exact hText
  run_of_mem := by
    intro s t hMember text tail hTail hText
    rcases Language.mem_mul.mp hMember with
      ⟨g, hGap, t, hValue, rfl⟩
    have hStart := startsOutside_of_mem_texts hValue.1
    refine ⟨s, tail, ?_, rfl, skipGap_of_lineEnd hTail⟩
    rw [hText, List.append_assoc, Row.skipGap,
      (hStart.append tail).dropWhile_append hGap]
    exact run_text_of_mem hValue hTail

end Grammar

------------------------------------------------------------
-- Productions
------------------------------------------------------------

/-
  The texts for a production, from its first symbol on, with
  a gap behind it.
-/
def FileFormat.productionOf :
    List Char → Language Char
  | [] => 0
  | c :: cs => symbolOf c * (symbolsOf cs * gaps)

/- With a gap in front the symbols of a production are alike. -/
theorem FileFormat.gaps_mul_productionOf
    {word : List Char}
    (hNotNil : word ≠ []) :
    gaps * productionOf word = symbolsOf word * gaps := by
  cases word with
  | nil => exact absurd rfl hNotNil
  | cons c cs =>
      simp only [productionOf, symbolsOf, List.map_cons,
        List.prod_cons, mul_assoc]

/- A production has a symbol. -/
theorem FileFormat.ne_nil_of_mem_gaps_mul_productionOf
    {word t : List Char}
    (hMember : t ∈ gaps * productionOf word) :
    word ≠ [] := by
  rintro rfl
  rw [productionOf, mul_zero] at hMember
  exact Language.notMem_zero t hMember

namespace Grammar

/- One or more symbols are read, and the gap behind them. -/
theorem production_readsValue :
    (symbol.atLeast 1).ReadsValue id
      FileFormat.productionOf where
  exists_of_run := by
    intro text word rest hRun
    rw [Parser.run_atLeast_iff symbol symbol_reads.consumes]
      at hRun
    rcases hRun with ⟨hLength, hGreedy⟩
    have hNotNil : word ≠ [] :=
      List.length_pos_iff.mp hLength
    rcases Row.exists_gap_skipGap text with ⟨g, hGap, hText⟩
    rcases Row.exists_gap_skipGap rest with
      ⟨behind, hBehind, hRest⟩
    rcases symbol_reads.greedy_sound hGreedy hGap with
      ⟨t, hSymbols, g', hGap', hSplit⟩
    refine ⟨t ++ (g' ++ behind), ?_, ?_⟩
    · rw [id_eq, FileFormat.gaps_mul_productionOf hNotNil]
      exact Language.append_mem_mul hSymbols
        (Text.append_mem_runsOf hGap' hBehind)
    · rw [← hText] at hSplit
      rw [List.append_assoc, List.append_assoc, ← hRest]
      exact hSplit
  run_of_mem := by
    intro word t hMember text tail hTail hText
    have hNotNil :=
      FileFormat.ne_nil_of_mem_gaps_mul_productionOf hMember
    rw [FileFormat.gaps_mul_productionOf hNotNil] at hMember
    rcases Language.mem_mul.mp hMember with
      ⟨t, hSymbols, g, hGap, rfl⟩
    have hBehind := skipGap_append_lineEnd hGap hTail
    have hFails :
        ∃ e, symbol.run (g ++ tail) = .error (.parse e) := by
      apply run_symbol_of_not_symbol
      rw [hBehind]
      exact not_symbol_of_lineEnd hTail
    rw [List.append_assoc] at hText
    rcases symbol_reads.greedy_complete hFails hSymbols
        ((Row.skipGap_skipGap text).trans hText) with
      ⟨rest, hGreedy, hRest⟩
    refine ⟨word, rest, ?_, rfl, hRest.trans hBehind⟩
    rw [Parser.run_atLeast_iff symbol symbol_reads.consumes]
    exact ⟨List.length_pos_iff.mpr hNotNil, hGreedy⟩

end Grammar

end Lindenmayer
