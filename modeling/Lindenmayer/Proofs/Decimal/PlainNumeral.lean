import Lindenmayer.Decimal.Numeral

/-
  Plain decimal numerals: ASCII digits, a point, and ASCII
  digits are read as a number, whatever their length.

  Correctness is proven by:
    * `Numeral.plain_eq_self`
    * `Numeral.readDigits_digits`
    * `Numeral.float?_plain`
-/

------------------------------------------------------------
-- Digits and Numerals
------------------------------------------------------------

namespace Lindenmayer

namespace Numeral

/- A text that is plain already stays as it is. -/
theorem plain_eq_self
    (cs : List Char)
    (hPlain : ∀ c ∈ cs, c.toNat < 0x80 ∧ isSpace c = false) :
    plain (String.ofList cs) = cs := by
  have hMap : cs.map plainChar = cs := by
    rw [List.map_congr_left (g := id), List.map_id]
    intro c hMember
    simp [plainChar, (hPlain c hMember).1]
  have hDrop :
      ∀ ds : List Char, ds ⊆ cs → ds.dropWhile isSpace = ds := by
    intro ds hSubset
    cases ds with
    | nil => rfl
    | cons d ds =>
        have hSpace := (hPlain d (hSubset (by simp))).2
        rw [List.dropWhile_cons_of_neg (by simp [hSpace])]
  have hReverse : cs.reverse ⊆ cs := by
    intro c hMember
    exact List.mem_reverse.mp hMember
  simp only [plain, String.toList_ofList, hMap]
  rw [hDrop cs (List.Subset.refl cs), hDrop _ hReverse,
    List.reverse_reverse]

/- A digit is read when no underscore follows it. -/
theorem readDigits_cons
    (c : Char)
    (cs : List Char)
    (hDigit : c.isDigit = true)
    (hNext : cs.head? ≠ some '_') :
    readDigits (c :: cs) =
      (c :: (readDigits cs).1, (readDigits cs).2) := by
  rw [readDigits]
  · simp [hDigit]
  · rintro d ds rfl
    exact hNext rfl

/- Nothing is read where no digit stands. -/
theorem readDigits_of_not_digit
    (cs : List Char)
    (hHead : ∀ c ∈ cs.head?, c.isDigit = false) :
    readDigits cs = ([], cs) := by
  unfold readDigits
  split
  · rfl
  · rename_i c d ds
    simp [hHead c (by simp)]
  · rename_i c ds _
    simp [hHead c (by simp)]

/- Digits are read up to a character that ends them. -/
theorem readDigits_digits
    (ds rest : List Char)
    (hDigits : ∀ d ∈ ds, d.isDigit = true)
    (hRest :
      ∀ c ∈ rest.head?, c.isDigit = false ∧ c ≠ '_') :
    readDigits (ds ++ rest) = (ds, rest) := by
  induction ds with
  | nil =>
      exact readDigits_of_not_digit rest
        (fun c hHead => (hRest c hHead).1)
  | cons d ds ih =>
      have hTail : ∀ d ∈ ds, d.isDigit = true :=
        fun d hMember =>
          hDigits d (List.mem_cons_of_mem _ hMember)
      have hNext : (ds ++ rest).head? ≠ some '_' := by
        cases ds with
        | nil =>
            intro hHead
            exact (hRest '_' hHead).2 rfl
        | cons d' ds =>
            intro hHead
            have hDigit := hTail d' (by simp)
            rw [List.cons_append, List.head?_cons,
              Option.some.injEq] at hHead
            rw [hHead] at hDigit
            exact absurd hDigit (by decide)
      rw [List.cons_append,
        readDigits_cons d _ (hDigits d (by simp)) hNext,
        ih hTail]

theorem plain_of_isDigit
    (d : Char)
    (hDigit : d.isDigit = true) :
    d.toNat < 0x80 ∧ isSpace d = false := by
  have hRange := Char.isDigit_iff_toNat.mp hDigit
  have hZero : '0'.toNat = 48 := rfl
  have hNine : '9'.toNat = 57 := rfl
  have hSpace : d ≠ ' ' := by
    rintro rfl
    exact absurd hDigit (by decide)
  refine ⟨by omega, ?_⟩
  simp only [isSpace, Bool.or_eq_false_iff,
    beq_eq_false_iff_ne, ne_eq, hSpace, not_false_eq_true,
    Bool.and_eq_false_iff, decide_eq_false_iff_not, true_and]
  omega

theorem toLower_of_isDigit
    (d : Char)
    (hDigit : d.isDigit = true) :
    d.toLower = d := by
  have hUpper : ¬ (d.val ≥ 'A'.val ∧ d.val ≤ 'Z'.val) := by
    simp only [Char.isDigit, Bool.and_eq_true,
      decide_eq_true_eq] at hDigit
    intro hUpper
    exact absurd
      (UInt32.le_trans hUpper.1 hDigit.2) (by decide)
  exact dif_neg hUpper

/- No name of a number begins with a digit. -/
theorem unsigned?_of_isDigit
    (d : Char)
    (cs : List Char)
    (hDigit : d.isDigit = true) :
    unsigned? (d :: cs) = decimal? (d :: cs) := by
  have hLetter : ∀ c : Char, c.isDigit = false → d ≠ c := by
    rintro c hClass rfl
    rw [hDigit] at hClass
    cases hClass
  have hInf : d ≠ 'i' := hLetter 'i' (by decide)
  have hNan : d ≠ 'n' := hLetter 'n' (by decide)
  simp [unsigned?, toLower_of_isDigit d hDigit, hInf, hNan]

theorem readSign_of_isDigit
    (d : Char)
    (cs : List Char)
    (hDigit : d.isDigit = true) :
    readSign (d :: cs) = (false, d :: cs) := by
  rw [readSign]
  · rintro ds hEq
    cases hEq
    exact absurd hDigit (by decide)
  · rintro ds hEq
    cases hEq
    exact absurd hDigit (by decide)

/-
  A plain numeral stands for the number of all its digits,
  divided by ten for each digit after the point.
-/
theorem float?_plain
    (whole fraction : List Char)
    (hWhole : ∀ d ∈ whole, d.isDigit = true)
    (hFraction : ∀ d ∈ fraction, d.isDigit = true)
    (hNonempty : whole ≠ []) :
    float? (String.ofList (whole ++ '.' :: fraction)) =
      some
        (nearest (ofDigits (whole ++ fraction))
          (0 - Int.ofNat fraction.length)) := by
  have hPlain :
      plain (String.ofList (whole ++ '.' :: fraction)) =
        whole ++ '.' :: fraction := by
    apply plain_eq_self
    intro c hMember
    rcases List.mem_append.mp hMember with hMember | hMember
    · exact plain_of_isDigit c (hWhole c hMember)
    · rcases List.mem_cons.mp hMember with rfl | hMember
      · decide
      · exact plain_of_isDigit c (hFraction c hMember)
  have hReadWhole :
      readDigits (whole ++ '.' :: fraction) =
        (whole, '.' :: fraction) :=
    readDigits_digits whole ('.' :: fraction) hWhole
      (by simp)
  have hReadFraction :
      readDigits fraction = (fraction, []) := by
    have hRead := readDigits_digits fraction [] hFraction
      (by simp)
    rwa [List.append_nil] at hRead
  have hDecimal :
      decimal? (whole ++ '.' :: fraction) =
        some
          (nearest (ofDigits (whole ++ fraction))
            (0 - Int.ofNat fraction.length)) := by
    simp [decimal?, hReadWhole, readFraction, hReadFraction,
      exponent?, hNonempty]
  cases whole with
  | nil => exact absurd rfl hNonempty
  | cons d whole =>
      have hDigit := hWhole d (by simp)
      rw [List.cons_append] at hPlain hDecimal ⊢
      rw [float?, hPlain, readSign_of_isDigit d _ hDigit]
      simp only [Bool.false_eq_true, if_false]
      rw [unsigned?_of_isDigit d _ hDigit, hDecimal]

end Numeral

end Lindenmayer
