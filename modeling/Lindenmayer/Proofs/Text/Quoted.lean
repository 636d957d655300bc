import Lindenmayer.Arithmetic
import Lindenmayer.Text.Quoted

/-
  The quoted form of a text that is a single character.

  Between the quotes stand the character itself, a letter for
  it after a backslash, or its code point: the hexadecimal
  digits after a backslash and a letter for their number.  The
  quotes are single ones but for the single quote.

  Key definitions include:
    * `Text.hexDigits`
    * `Text.IsShown`
    * `Text.quotedChar`

  Correctness is proven by:
    * `Text.hex_eq_hexDigits`
    * `Text.isPrintable_iff`
    * `Text.quote_toString`
-/

------------------------------------------------------------
-- Hexadecimal Digits
------------------------------------------------------------

namespace Lindenmayer

namespace Text

open scoped Arithmetic

/- The hexadecimal digits of a number, zeros filling up. -/
def hexDigits
    (width n : Nat) : List Char :=
  List.leftpad width '0' (Nat.toDigits 16 n)

/- A number that fits has all its digits among the last. -/
theorem hex_eq_hexDigits
    (width n : Nat)
    (hFits : n < 16 ^ (width + 1)) :
    hex (width + 1) n = hexDigits (width + 1) n := by
  induction width generalizing n with
  | zero =>
      have hDigit : n < 16 := by simpa using hFits
      simp [hex, hexDigit, hexDigits, List.leftpad,
        Nat.mod_eq_of_lt hDigit,
        Nat.toDigits_of_lt_base hDigit]
  | succ width ih =>
      rw [Nat.pow_succ, Nat.mul_comm] at hFits
      rw [hex, ih _ (Nat.div_lt_of_lt_mul hFits)]
      by_cases hDigit : n < 16
      · rw [Nat.div_eq_of_lt hDigit]
        simp [hexDigit, hexDigits, List.leftpad,
          Nat.mod_eq_of_lt hDigit,
          Nat.toDigits_of_lt_base hDigit,
          ← List.replicate_succ']
      · have hSplit :
            Nat.toDigits 16 n =
              Nat.toDigits 16 (n / 16) ++
                [Nat.digitChar (n % 16)] :=
          Nat.toDigits_of_base_le (by decide) (by omega)
        rw [hexDigits, hexDigits, hSplit]
        simp [hexDigit, List.leftpad]

------------------------------------------------------------
-- Shown Characters
------------------------------------------------------------

/-
  The characters that stand for themselves: in ASCII those
  from the space to the tilde, and the printable ones beyond.
-/
def IsShown
    (c : Char) : Prop :=
  (0x20 ≤ c.toNat ∧ c.toNat ≤ 0x7e) ∨
    (0x80 ≤ c.toNat ∧ isPrintable c = true)

instance
    (c : Char) :
    Decidable (IsShown c) := by
  unfold IsShown
  infer_instance

theorem isPrintable_iff
    (c : Char) :
    isPrintable c = true ↔ IsShown c := by
  have hRanges : ∀ r ∈ unprintable.ranges, 0x7f ≤ r.1 := by
    decide +kernel
  have hDelete :
      c.toNat = 0x7f → unprintable.contains c = true := by
    intro hCode
    rw [CharClass.contains_iff]
    exact ⟨(0x7f, 0xa0), List.mem_cons_self, by omega⟩
  have hBelow :
      c.toNat < 0x7f → unprintable.contains c = false := by
    intro hCode
    rw [Bool.eq_false_iff, Ne, CharClass.contains_iff]
    rintro ⟨r, hMember, hStart, _⟩
    have hRange := hRanges r hMember
    omega
  by_cases hAscii : c.toNat < 0x80
  · by_cases hCode : c.toNat = 0x7f
    · simp [isPrintable, IsShown, hDelete hCode, hCode]
    · have hOutside := hBelow (by omega)
      simp only [isPrintable, hOutside, IsShown, Bool.not_false,
        Bool.and_true, decide_eq_true_eq]
      omega
  · have hPrintable : 0x80 ≤ c.toNat := by omega
    have hBeyond : ¬ c.toNat ≤ 0x7e := by omega
    simp [IsShown, hPrintable, hBeyond]

------------------------------------------------------------
-- Quoted Characters
------------------------------------------------------------

/- What stands between the quotes for a character. -/
def escapedChar : Char → List Char
  | '\\' => ['\\', '\\']
  | '\t' => ['\\', 't']
  | '\n' => ['\\', 'n']
  | '\r' => ['\\', 'r']
  | c =>
      if IsShown c then [c]
      else if c.toNat < 0x100 then
        '\\' :: 'x' :: hexDigits 2 c.toNat
      else if c.toNat < 0x10000 then
        '\\' :: 'u' :: hexDigits 4 c.toNat
      else '\\' :: 'U' :: hexDigits 8 c.toNat

/- The quoted form of a character. -/
def quotedChar
    (c : Char) : String :=
  if c = '\'' then "\"'\""
  else "'" ++ String.ofList (escapedChar c) ++ "'"

theorem escapeCode_eq
    (c : Char) :
    escapeCode c =
      if c.toNat < 0x100 then
        '\\' :: 'x' :: hexDigits 2 c.toNat
      else if c.toNat < 0x10000 then
        '\\' :: 'u' :: hexDigits 4 c.toNat
      else '\\' :: 'U' :: hexDigits 8 c.toNat := by
  have hCode : c.toNat < 2 ^ 32 := UInt32.toNat_lt c.val
  unfold escapeCode
  split
  · rw [hex_eq_hexDigits 1 _ (by omega)]
  · split
    · rw [hex_eq_hexDigits 3 _ (by omega)]
    · rw [hex_eq_hexDigits 7 _ (by omega)]

theorem escapeChar_eq
    (c : Char)
    (hQuote : c ≠ '\'') :
    escapeChar '\'' c = escapedChar c := by
  unfold escapedChar
  split
  · rfl
  · rfl
  · rfl
  · rfl
  · rename_i hBackslash hTab hFeed hReturn
    rw [imp_false] at hBackslash hTab hFeed hReturn
    simp [escapeChar, hQuote, hBackslash, hTab, hFeed, hReturn,
      isPrintable_iff, escapeCode_eq]

/- A text of one character is quoted like the character. -/
theorem quote_toString
    (c : Char) :
    quote c.toString = quotedChar c := by
  by_cases hQuote : c = '\''
  · subst hQuote
    decide +kernel
  · have hFor : quoteFor [c] = '\'' := by
      simp [quoteFor, Ne.symm hQuote]
    rw [quotedChar, if_neg hQuote, ← escapeChar_eq c hQuote,
      quote, ← String.toList_inj]
    simp [quoteChars, hFor, String.toList_append]

example : quotedChar '\x07' = "'\\x07'" := by
  decide

end Text

end Lindenmayer
