import Lindenmayer.Proofs.Parser.Success
import Lindenmayer.Proofs.Text.Language

/-
  Parsers that read a language.

  A parser that skips characters of a class reads exactly the
  texts that stand for its values, but for skipped characters
  that it may leave or take behind them.  Repeated, it reads
  texts for lists of values.

  Key definitions include:
    * `Parser.Reads`

  Correctness is proven by:
    * `Parser.Reads.exists_run_iff`
    * `Parser.Reads.sound`
    * `Parser.Reads.complete`
    * `Parser.Reads.greedy_sound`
    * `Parser.Reads.greedy_complete`
-/

------------------------------------------------------------
-- Reading Texts
------------------------------------------------------------

namespace Lindenmayer

namespace Parser

open Text (runsOf)

variable {α : Type}

/-
  A parser reads a language when its runs take a text of the
  language and skipped characters, when it reads every text
  of the language whatever follows, and when neither it nor
  the language minds skipped characters in front.
-/
structure Reads
    (skipped : Char → Bool)
    (p : Parser α)
    (standsFor : α → Language Char) : Prop where
  run_dropWhile :
    ∀ text, p.run (text.dropWhile skipped) = p.run text
  ne_nil : ∀ a, ∀ t ∈ standsFor a, t ≠ []
  append_mem :
    ∀ a, ∀ g ∈ runsOf skipped, ∀ t ∈ standsFor a,
      g ++ t ∈ standsFor a
  exists_of_run :
    ∀ text a rest, p.run text = .ok (a, rest) →
      ∃ t ∈ standsFor a, ∃ g ∈ runsOf skipped,
        text = t ++ (g ++ rest)
  run_of_mem :
    ∀ a, ∀ t ∈ standsFor a, ∀ tail,
      ∃ rest, p.run (t ++ tail) = .ok (a, rest) ∧
        rest.dropWhile skipped = tail.dropWhile skipped

namespace Reads

variable {skipped : Char → Bool}
variable {p : Parser α}
variable {standsFor : α → Language Char}

/- A parser that reads a language consumes. -/
theorem consumes
    (hReads : Reads skipped p standsFor) :
    p.Consumes := by
  intro text a rest hRun
  rcases hReads.exists_of_run text a rest hRun with
    ⟨t, hText, g, _, rfl⟩
  have hLength : 0 < t.length :=
    List.length_pos_iff.mpr (hReads.ne_nil a t hText)
  simp only [List.length_append]
  omega

/- Skipped characters in front make no difference. -/
theorem run_congr
    (hReads : Reads skipped p standsFor)
    {text text' : List Char}
    (hText :
      text.dropWhile skipped = text'.dropWhile skipped) :
    p.run text = p.run text' := by
  rw [← hReads.run_dropWhile, hText, hReads.run_dropWhile]

/- A value is read where a text for one stands. -/
theorem exists_run_iff
    (hReads : Reads skipped p standsFor)
    (text : List Char) :
    (∃ r, p.run text = .ok r) ↔
      Text.BeginsWith (⨆ a, standsFor a) text := by
  constructor
  · rintro ⟨⟨a, rest⟩, hRun⟩
    rcases hReads.exists_of_run text a rest hRun with
      ⟨t, hText, g, _, rfl⟩
    exact ⟨t, Language.mem_iSup.mpr ⟨a, hText⟩,
      List.prefix_append t (g ++ rest)⟩
  · rintro ⟨t, hMember, tail, rfl⟩
    rcases Language.mem_iSup.mp hMember with ⟨a, hText⟩
    rcases hReads.run_of_mem a t hText tail with
      ⟨rest, hRun, _⟩
    exact ⟨(a, rest), hRun⟩

/-
  What a run takes, with skipped characters in front, is a
  text for its value, with skipped characters behind.
-/
theorem sound
    (hReads : Reads skipped p standsFor)
    {text rest g : List Char}
    {a : α}
    (hRun : p.run text = .ok (a, rest))
    (hSkipped : g ∈ runsOf skipped) :
    ∃ t ∈ standsFor a, ∃ g' ∈ runsOf skipped,
      g ++ text = t ++ (g' ++ rest) := by
  rcases hReads.exists_of_run text a rest hRun with
    ⟨t, hText, g', hBehind, rfl⟩
  exact ⟨g ++ t, hReads.append_mem a g hSkipped t hText,
    g', hBehind, (List.append_assoc g t _).symm⟩

/-
  A text that differs from one of the language by skipped
  characters in front is read as well.
-/
theorem complete
    (hReads : Reads skipped p standsFor)
    {text t tail : List Char}
    {a : α}
    (hMember : t ∈ standsFor a)
    (hText :
      text.dropWhile skipped =
        (t ++ tail).dropWhile skipped) :
    ∃ rest, p.run text = .ok (a, rest) ∧
      rest.dropWhile skipped = tail.dropWhile skipped := by
  rcases hReads.run_of_mem a t hMember tail with
    ⟨rest, hRun, hRest⟩
  exact ⟨rest, (hReads.run_congr hText).trans hRun, hRest⟩

/-
  Greedy repetition takes a text for its values, one after
  the other.  The induction is on the values, and carries the
  skipped characters that stand before the next of them.
-/
theorem greedy_sound
    (hReads : Reads skipped p standsFor)
    {text rest g : List Char}
    {as : List α}
    (hRun : greedy p text = .ok (as, rest))
    (hSkipped : g ∈ runsOf skipped) :
    ∃ t ∈ (as.map standsFor).prod, ∃ g' ∈ runsOf skipped,
      g ++ text = t ++ (g' ++ rest) := by
  induction as generalizing text g with
  | nil =>
      rcases (greedy_nil_iff p text rest).mp hRun with
        ⟨rfl, _⟩
      exact ⟨[], rfl, g, hSkipped, rfl⟩
  | cons a as ih =>
      rcases (greedy_cons_iff p text rest a as).mp hRun with
        ⟨mid, hFirst, _, hLater⟩
      rcases hReads.sound hFirst hSkipped with
        ⟨t, hText, g', hBehind, hSplit⟩
      rcases ih hLater hBehind with
        ⟨t', hTexts, g'', hLast, hRest⟩
      refine ⟨t ++ t',
        Text.append_mem_prod_cons hText hTexts, g'', hLast,
        ?_⟩
      rw [hSplit, hRest, List.append_assoc]

/-
  Greedy repetition reads all texts up to a tail where the
  parser fails by a parse error.
-/
theorem greedy_complete
    (hReads : Reads skipped p standsFor)
    {tail : List Char}
    (hTail : ∃ e, p.run tail = .error (.parse e))
    {text t : List Char}
    {as : List α}
    (hMember : t ∈ (as.map standsFor).prod)
    (hText :
      text.dropWhile skipped =
        (t ++ tail).dropWhile skipped) :
    ∃ rest, greedy p text = .ok (as, rest) ∧
      rest.dropWhile skipped = tail.dropWhile skipped := by
  induction as generalizing text t with
  | nil =>
      have hNil : t = [] := hMember
      rw [hNil, List.nil_append] at hText
      refine ⟨text, ?_, hText⟩
      rw [greedy_nil_iff]
      rw [hReads.run_congr hText]
      exact ⟨rfl, hTail⟩
  | cons a as ih =>
      rw [List.map_cons, Text.mem_prod_cons_iff] at hMember
      rcases hMember with ⟨t, hFirst, t', hLater, rfl⟩
      rw [List.append_assoc] at hText
      rcases hReads.complete hFirst hText with
        ⟨mid, hRun, hMid⟩
      rcases ih hLater hMid with ⟨rest, hGreedy, hRest⟩
      refine ⟨rest, ?_, hRest⟩
      rw [greedy_cons_iff]
      exact ⟨mid, hRun, hReads.consumes text a mid hRun,
        hGreedy⟩

end Reads

end Parser

end Lindenmayer
