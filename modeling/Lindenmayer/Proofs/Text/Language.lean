import Mathlib.Computability.Language
import Mathlib.Data.List.TakeWhile
import Mathlib.Order.CompletePartialOrder

/-
  Languages of texts: what belongs to a row of languages, to
  a repetition, and to the texts of a class of characters.

  Key definitions include:
    * `Text.BeginsWith`
    * `Text.runsOf`
    * `Text.StartsOutside`

  Correctness is proven by:
    * `Text.mem_prod_cons_iff`
    * `Text.exists_mem_of_mem_prod`
    * `Text.kstar_iSup`
    * `Text.exists_runsOf_dropWhile`
    * `Text.takeWhile_append_of_runsOf`
    * `Text.dropWhile_append_of_runsOf`
    * `Text.StartsOutside.dropWhile_append`
-/

------------------------------------------------------------
-- Rows and Repetitions of Languages
------------------------------------------------------------

namespace Lindenmayer

namespace Text

open scoped Computability

/- A text of a row of parts begins with the first part. -/
theorem mem_prod_cons_iff
    (l : Language Char)
    (ls : List (Language Char))
    (t : List Char) :
    t ∈ (l :: ls).prod ↔
      ∃ a ∈ l, ∃ b ∈ ls.prod, t = a ++ b := by
  rw [List.prod_cons, Language.mem_mul]
  simp only [eq_comm]

theorem append_mem_prod_cons
    {l : Language Char}
    {ls : List (Language Char)}
    {a b : List Char}
    (hPart : a ∈ l)
    (hOthers : b ∈ ls.prod) :
    a ++ b ∈ (l :: ls).prod := by
  rw [List.prod_cons]
  exact Language.append_mem_mul hPart hOthers

theorem mem_prod_singleton_iff
    (l : Language Char)
    (t : List Char) :
    t ∈ [l].prod ↔ t ∈ l := by
  rw [List.prod_singleton]

/- A row has a text only when each of its parts has one. -/
theorem exists_mem_of_mem_prod
    {ls : List (Language Char)}
    {t : List Char}
    (hMember : t ∈ ls.prod)
    {l : Language Char}
    (hPart : l ∈ ls) :
    ∃ s, s ∈ l := by
  induction ls generalizing t with
  | nil => cases hPart
  | cons k ls ih =>
      rw [mem_prod_cons_iff] at hMember
      rcases hMember with ⟨s, hFirst, t, hLater, _⟩
      rcases List.mem_cons.mp hPart with rfl | hPart
      · exact ⟨s, hFirst⟩
      · exact ih hLater hPart

/- Each part of a row of texts is of its language. -/
theorem exists_mem_of_mem_prod_map
    {α : Type}
    {standsFor : α → Language Char}
    {as : List α}
    {t : List Char}
    (hMember : t ∈ (as.map standsFor).prod)
    {a : α}
    (hPart : a ∈ as) :
    ∃ s, s ∈ standsFor a :=
  exists_mem_of_mem_prod hMember (List.mem_map_of_mem hPart)

/-
  When every text of a language stands for some value, its
  repetition consists of the texts for lists of values.
-/
theorem kstar_iSup
    {α : Type}
    (standsFor : α → Language Char) :
    (⨆ a, standsFor a)∗ =
      ⨆ as : List α, (as.map standsFor).prod := by
  ext t
  rw [Language.mem_kstar, Language.mem_iSup]
  constructor
  · rintro ⟨parts, rfl, hParts⟩
    induction parts with
    | nil => exact ⟨[], rfl⟩
    | cons part parts ih =>
        rcases Language.mem_iSup.mp (hParts part (by simp))
          with ⟨a, hValue⟩
        rcases ih (fun p hMember =>
            hParts p (List.mem_cons_of_mem part hMember)) with
          ⟨as, hRest⟩
        exact ⟨a :: as, append_mem_prod_cons hValue hRest⟩
  · rintro ⟨as, hText⟩
    induction as generalizing t with
    | nil => exact ⟨[], hText, by simp⟩
    | cons a as ih =>
        rcases (mem_prod_cons_iff _ _ t).mp hText with
          ⟨part, hPart, rest, hRest, rfl⟩
        rcases ih rest hRest with ⟨parts, rfl, hParts⟩
        refine ⟨part :: parts, rfl, ?_⟩
        intro p hMember
        rcases List.mem_cons.mp hMember with rfl | hMember
        · exact Language.mem_iSup.mpr ⟨a, hPart⟩
        · exact hParts p hMember

/- A text begins with one of a language. -/
def BeginsWith
    (l : Language Char)
    (text : List Char) : Prop :=
  ∃ t ∈ l, t <+: text

------------------------------------------------------------
-- Texts of a Class
------------------------------------------------------------

/- The texts whose characters all belong to a class. -/
def runsOf
    (holds : Char → Bool) : Language Char :=
  {t | ∀ c ∈ t, holds c = true}

/- What is taken of a class is of the class. -/
theorem takeWhile_mem_runsOf
    (holds : Char → Bool)
    (t : List Char) :
    t.takeWhile holds ∈ runsOf holds :=
  fun _ hMember => List.mem_takeWhile_imp hMember

/- A text begins with all it has of a class. -/
theorem exists_runsOf_dropWhile
    (holds : Char → Bool)
    (t : List Char) :
    ∃ g ∈ runsOf holds, t = g ++ t.dropWhile holds := by
  exact ⟨t.takeWhile holds, takeWhile_mem_runsOf holds t,
    List.takeWhile_append_dropWhile.symm⟩

theorem append_mem_runsOf
    {holds : Char → Bool}
    {s t : List Char}
    (hFirst : s ∈ runsOf holds)
    (hSecond : t ∈ runsOf holds) :
    s ++ t ∈ runsOf holds := by
  intro c hMember
  rcases List.mem_append.mp hMember with hMember | hMember
  · exact hFirst c hMember
  · exact hSecond c hMember

/- A text of a class goes before one that may follow it. -/
theorem append_mem_runsOf_mul
    {holds : Char → Bool}
    {l : Language Char}
    {g t : List Char}
    (hFirst : g ∈ runsOf holds)
    (hMember : t ∈ runsOf holds * l) :
    g ++ t ∈ runsOf holds * l := by
  rcases Language.mem_mul.mp hMember with
    ⟨g', hSecond, t, hText, rfl⟩
  rw [← List.append_assoc]
  exact Language.append_mem_mul
    (append_mem_runsOf hFirst hSecond) hText

/- Nothing is dropped from a text that begins otherwise. -/
theorem dropWhile_eq_self_of_head?
    {holds : Char → Bool}
    {t : List Char}
    (hHead : ∀ c ∈ t.head?, holds c = false) :
    t.dropWhile holds = t := by
  cases t with
  | nil => rfl
  | cons c t =>
      have hClass := hHead c (by simp)
      rw [List.dropWhile_cons_of_neg (by simp [hClass])]

/- A text of a class is dropped where the class ends. -/
theorem dropWhile_append_of_runsOf
    {holds : Char → Bool}
    {g t : List Char}
    (hRun : g ∈ runsOf holds)
    (hHead : ∀ c ∈ t.head?, holds c = false) :
    (g ++ t).dropWhile holds = t := by
  rw [List.dropWhile_append_of_pos hRun]
  exact dropWhile_eq_self_of_head? hHead

/- What is left after dropping begins otherwise. -/
theorem not_holds_head?_dropWhile
    (holds : Char → Bool)
    (t : List Char) :
    ∀ c ∈ (t.dropWhile holds).head?, holds c = false := by
  intro c hHead
  have hNot := List.head?_dropWhile_not holds t
  rw [Option.mem_def.mp hHead] at hNot
  simpa using hNot

theorem dropWhile_dropWhile
    (holds : Char → Bool)
    (t : List Char) :
    (t.dropWhile holds).dropWhile holds =
      t.dropWhile holds :=
  dropWhile_eq_self_of_head?
    (not_holds_head?_dropWhile holds t)

/- A text of a class is taken up to where the class ends. -/
theorem takeWhile_append_of_runsOf
    {holds : Char → Bool}
    {g t : List Char}
    (hRun : g ∈ runsOf holds)
    (hHead : ∀ c ∈ t.head?, holds c = false) :
    (g ++ t).takeWhile holds = g := by
  rw [List.takeWhile_append_of_pos hRun]
  cases t with
  | nil => simp
  | cons c t =>
      have hClass := hHead c (by simp)
      rw [List.takeWhile_cons_of_neg (by simp [hClass]),
        List.append_nil]

/- A text starts outside a class with a character not in it. -/
def StartsOutside
    (holds : Char → Bool)
    (t : List Char) : Prop :=
  ∃ c, t.head? = some c ∧ holds c = false

namespace StartsOutside

variable {holds : Char → Bool}
variable {t : List Char}

theorem append
    (hStart : StartsOutside holds t)
    (tail : List Char) :
    StartsOutside holds (t ++ tail) := by
  rcases hStart with ⟨c, hHead, hClass⟩
  exact ⟨c, List.mem_head?_append_of_mem_head? hHead, hClass⟩

theorem ne_nil
    (hStart : StartsOutside holds t) :
    t ≠ [] := by
  rcases hStart with ⟨c, hHead, _⟩
  rintro rfl
  cases hHead

/- A text of a class is dropped before such a text. -/
theorem dropWhile_append
    (hStart : StartsOutside holds t)
    {g : List Char}
    (hRun : g ∈ runsOf holds) :
    (g ++ t).dropWhile holds = t := by
  apply dropWhile_append_of_runsOf hRun
  intro c hMember
  rcases hStart with ⟨d, hHead, hClass⟩
  rw [Option.mem_def, hHead, Option.some.injEq] at hMember
  rw [← hMember]
  exact hClass

end StartsOutside

end Text

end Lindenmayer
