import Lindenmayer.Proofs.Grammar.Lexical

/-
  Every file of the format has settings and rules: the
  languages without values are the unions of those with
  values.

  Correctness is proven by:
    * `FileFormat.settingLine_eq_iSup`
    * `FileFormat.ruleLine_eq_iSup`
    * `FileFormat.mem_file_iff_exists_fileOf`
-/

------------------------------------------------------------
-- Unions over Values
------------------------------------------------------------

namespace Lindenmayer

namespace FileFormat

open scoped Computability
open Grammar (isDigit_of_mem mem_digits_iff)

/- Every decimal is converted to some number. -/
theorem exists_mem_decimalsOf
    {t : List Char}
    (hMember : t ∈ decimals) :
    ∃ x, t ∈ decimalsOf x := by
  have hDecimal := hMember
  rw [decimals, Text.mem_prod_cons_iff] at hDecimal
  rcases hDecimal with ⟨whole, hWhole, _, hRest, rfl⟩
  rw [Text.mem_prod_cons_iff] at hRest
  rcases hRest with ⟨_, rfl, fraction, hFraction, rfl⟩
  rw [Text.mem_prod_singleton_iff] at hFraction
  rw [mem_digits_iff] at hWhole hFraction
  exact ⟨_, hMember,
    Numeral.float?_plain whole fraction
      (isDigit_of_mem hWhole.2) (isDigit_of_mem hFraction.2)
      hWhole.1⟩

theorem decimals_eq_iSup :
    decimals = ⨆ x, decimalsOf x := by
  ext t
  rw [Language.mem_iSup]
  constructor
  · exact exists_mem_decimalsOf
  · intro hValue
    rcases hValue with ⟨x, hDecimal, _⟩
    exact hDecimal

theorem texts_eq_iSup :
    texts = ⨆ s, textsOf s := by
  ext t
  rw [Language.mem_iSup]
  constructor
  · intro hText
    exact ⟨_, hText, rfl⟩
  · intro hValue
    rcases hValue with ⟨s, hText, _⟩
    exact hText

theorem symbol_eq_iSup :
    symbol = ⨆ c, symbolOf c := by
  ext t
  rw [Language.mem_iSup]
  rfl

/- A line has the values that its value may have. -/
theorem entry_iSup
    {α : Type}
    (key : String)
    (valueOf : α → Language Char) :
    entry key (⨆ a, valueOf a) =
      ⨆ a, entry key (valueOf a) := by
  simp only [entry, List.prod_cons, List.prod_nil, mul_one,
    Language.iSup_mul, Language.mul_iSup]

/- Every line of a key is that of a setting. -/
theorem settingLine_eq_iSup :
    settingLine = ⨆ s, settingLineOf s := by
  ext t
  change (_ ∨ _) ↔ _
  rw [decimals_eq_iSup, texts_eq_iSup, Language.iSup_mul]
  simp only [entry_iSup, Language.mem_iSup]
  constructor
  · intro hLine
    rcases hLine with ⟨k, x, hLine⟩ | ⟨k, s, hLine⟩
    · exact ⟨.decimal k x, hLine⟩
    · exact ⟨.text k s, hLine⟩
  · intro hSetting
    rcases hSetting with ⟨⟨k, x⟩ | ⟨k, s⟩, hLine⟩
    · exact Or.inl ⟨k, x, hLine⟩
    · exact Or.inr ⟨k, s, hLine⟩

/- Every line of a rule has a symbol and a production. -/
theorem ruleLine_eq_iSup :
    ruleLine = ⨆ r, ruleLineOf r := by
  have hSymbols :
      gaps * symbol = ⨆ c, gaps * symbolOf c := by
    rw [symbol_eq_iSup, Language.mul_iSup]
  ext t
  rw [ruleLine, hSymbols, Text.kstar_iSup, symbol_eq_iSup]
  simp only [List.prod_cons, List.prod_nil, mul_one,
    Language.iSup_mul, Language.mul_iSup, Language.mem_iSup]
  constructor
  · intro hLine
    rcases hLine with ⟨cs, c, a, hLine⟩
    refine ⟨⟨a, c :: cs⟩, List.cons_ne_nil c cs, ?_⟩
    simpa [symbolsOf, mul_assoc] using hLine
  · intro hRule
    rcases hRule with ⟨⟨a, production⟩, hNotNil, hLine⟩
    cases production with
    | nil => exact absurd rfl hNotNil
    | cons c cs =>
        refine ⟨cs, c, a, ?_⟩
        simpa [symbolsOf, mul_assoc] using hLine

/- Every file has settings and rules. -/
theorem mem_file_iff_exists_fileOf
    (source : List Char) :
    source ∈ file ↔
      ∃ settings rules, source ∈ fileOf settings rules := by
  rw [file, settingLine_eq_iSup, ruleLine_eq_iSup,
    Text.kstar_iSup, Text.kstar_iSup]
  simp only [List.prod_cons, List.prod_nil, mul_one,
    Language.iSup_mul, Language.mul_iSup, Language.mem_iSup]
  constructor
  · intro hLines
    rcases hLines with ⟨rules, r, settings, hLines⟩
    refine ⟨settings, r :: rules, List.cons_ne_nil r rules,
      ?_⟩
    simpa [mul_assoc] using hLines
  · intro hFile
    rcases hFile with ⟨settings, rules, hNotNil, hLines⟩
    cases rules with
    | nil => exact absurd rfl hNotNil
    | cons r rules =>
        refine ⟨rules, r, settings, ?_⟩
        simpa [mul_assoc] using hLines

end FileFormat

end Lindenmayer
