import Lindenmayer.Proofs.Grammar.Line
import Lindenmayer.Proofs.Text.LineEnds

/-
  Parsers that do not tell line ends apart.

  Such a parser runs alike over a text and over the text with
  its line ends translated: it fails by the same failure, or
  it reads the same value and leaves texts that differ by the
  translation again.  The two runs take different numbers of
  characters, so they are related by what they leave.

  Key definitions include:
    * `Parser.SameOutcome`
    * `Parser.IgnoresLineEnds`
    * `Parser.TakesNoReturn`
    * `Row.IgnoresLineEnds`

  Correctness is proven by:
    * `Parser.IgnoresLineEnds.recognize`
    * `Parser.IgnoresLineEnds.oneOf`
    * `Parser.IgnoresLineEnds.atLeast`
    * `Row.IgnoresLineEnds.cons`
    * `Row.IgnoresLineEnds.sequence`
    * `Row.IgnoresLineEnds.spaced`
-/

------------------------------------------------------------
-- Outcomes
------------------------------------------------------------

namespace Lindenmayer

open Text (EndsLine unifyNewlines)

namespace Parser

variable {α β γ : Type}

/-
  Two outcomes are the same when both are one failure, or
  both are values that are seen as one, and the second leaves
  what the first one leaves with its line ends translated.
-/
def SameOutcome
    (value : α → β)
    (o o' : Parsed α) : Prop :=
  (∃ f, o = .error f ∧ o' = .error f) ∨
    ∃ a a' rest,
      o = .ok (a, rest) ∧
      o' = .ok (a', unifyNewlines rest) ∧
      value a = value a'

namespace SameOutcome

theorem error
    (value : α → β)
    (f : Failure) :
    SameOutcome value (.error f) (.error f) :=
  .inl ⟨f, rfl, rfl⟩

theorem ok
    (value : α → β)
    (a : α)
    (rest : List Char) :
    SameOutcome value (.ok (a, rest))
      (.ok (a, unifyNewlines rest)) :=
  .inr ⟨a, a, rest, rfl, rfl, rfl⟩

end SameOutcome

------------------------------------------------------------
-- Primitives
------------------------------------------------------------

/-
  A parser ignores line ends when translating them leads to
  the same outcome.
-/
def IgnoresLineEnds
    (p : Parser α)
    (value : α → β) : Prop :=
  ∀ text,
    SameOutcome value (p.run text)
      (p.run (unifyNewlines text))

/-
  A parser of one character does so if it matches no character
  that ends a line, and fails alike on all that it refuses.
-/
theorem ignoresLineEnds_of_head
    {p : Parser Char}
    (holds : Char → Bool)
    {f g : Failure}
    (hLine : ∀ c, EndsLine c → holds c = false)
    (hNone : p.run [] = .error f)
    (hHead :
      ∀ c rest,
        p.run (c :: rest) =
          if holds c then .ok (c, rest) else .error g) :
    p.IgnoresLineEnds id := by
  intro text
  cases text with
  | nil =>
      change SameOutcome id (p.run []) (p.run [])
      rw [hNone]
      exact .error _ _
  | cons d text =>
      rcases Text.unifyNewlines_cons_cases d text with
        ⟨_, hSame⟩ | ⟨hEnd, rest, hFeed⟩
      · rw [hSame, hHead, hHead]
        split
        · exact .ok _ d text
        · exact .error _ _
      · rw [hFeed, hHead, hHead, hLine d hEnd,
          hLine '\n' (.inr rfl)]
        exact .error _ _

theorem ignoresLineEnds_char
    {c : Char}
    (hLine : ¬ EndsLine c) :
    (char c).IgnoresLineEnds id := by
  have hOther : ∀ d, EndsLine d → (d == c) = false := by
    intro d hEnd
    rw [beq_eq_false_iff_ne]
    rintro rfl
    exact hLine hEnd
  have hHead :
      ∀ d rest,
        (char c).run (d :: rest) =
          if d == c then .ok (d, rest)
          else
            .error (.parse (.expectedCharacter c.toString)) := by
    intro d rest
    by_cases hChar : d = c <;> simp [char, hChar]
  exact ignoresLineEnds_of_head (· == c) hOther rfl hHead

theorem ignoresLineEnds_anyChar
    {holds : Char → Bool}
    (hLine : ∀ c, EndsLine c → holds c = false)
    (face : String) :
    (anyChar holds face).IgnoresLineEnds id :=
  ignoresLineEnds_of_head holds hLine rfl fun _ _ => rfl

theorem ignoresLineEnds_literal
    {s : String}
    (hLine : ∀ c ∈ s.toList, ¬ EndsLine c) :
    (literal s).IgnoresLineEnds id := by
  intro text
  simp only [literal, Text.isPrefixOf?_unifyNewlines hLine]
  cases s.toList.isPrefixOf? text with
  | none => exact .error _ _
  | some rest => exact .ok _ s rest

/- Both characters of line ends are blank. -/
theorem ignoresLineEnds_skipBlanks :
    skipBlanks.IgnoresLineEnds id := by
  intro text
  have hBlank :
      Text.isBlank '\r' = Text.isBlank '\n' := by decide
  simp only [skipBlanks, Text.trimLeft,
    Text.dropWhile_unifyNewlines hBlank]
  exact .ok _ () _

------------------------------------------------------------
-- Combinators
------------------------------------------------------------

/- What a parser takes has no carriage return in it. -/
def TakesNoReturn
    (p : Parser α) : Prop :=
  ∀ text a rest, p.run text = .ok (a, rest) →
    ∃ t, '\r' ∉ t ∧ text = t ++ rest

namespace IgnoresLineEnds

variable {p : Parser α}
variable {value : α → β}

theorem map
    (hIgnores : p.IgnoresLineEnds id)
    (name : String)
    (f : α → Except Failure γ) :
    (p.map name f).IgnoresLineEnds id := by
  intro text
  rcases hIgnores text with
    ⟨e, hRun, hRun'⟩ | ⟨a, _, rest, hRun, hRun', rfl⟩
  · simp only [Parser.map, hRun, hRun']
    exact .error _ e
  · simp only [Parser.map, hRun, hRun', id_eq]
    cases f a with
    | error e => exact .error _ e
    | ok c => exact .ok _ c rest

theorem tryMap
    (hIgnores : p.IgnoresLineEnds id)
    (name : String)
    (f : α → Except Failure γ) :
    (p.tryMap name f).IgnoresLineEnds id := by
  intro text
  rcases hIgnores text with
    ⟨e, hRun, hRun'⟩ | ⟨a, _, rest, hRun, hRun', rfl⟩
  · simp only [Parser.tryMap, hRun, hRun']
    exact .error _ e
  · simp only [Parser.tryMap, hRun, hRun', id_eq]
    cases f a with
    | error e => exact .error _ e.rejection
    | ok c => exact .ok _ c rest

/-
  The text recognized is the same, as it stands in front of
  the first carriage return.
-/
theorem recognize
    (hIgnores : p.IgnoresLineEnds value)
    (hTakes : p.TakesNoReturn) :
    p.recognize.IgnoresLineEnds id := by
  intro text
  rcases hIgnores text with
    ⟨e, hRun, hRun'⟩ | ⟨a, a', rest, hRun, hRun', _⟩
  · simp only [Parser.recognize, hRun, hRun']
    exact .error _ e
  · simp only [Parser.recognize, hRun, hRun']
    rcases hTakes text a rest hRun with ⟨t, hReturn, rfl⟩
    rw [Text.unifyNewlines_append hReturn,
      take_append_sub, take_append_sub]
    exact .ok _ _ rest

/- An alternative is given up for both texts or for none. -/
theorem oneOf
    {ps : List (Parser α)}
    (hIgnores : ∀ p ∈ ps, p.IgnoresLineEnds value) :
    (oneOf ps).IgnoresLineEnds value := by
  intro text
  change SameOutcome value (firstMatch text ps)
    (firstMatch (unifyNewlines text) ps)
  induction ps with
  | nil => exact .error _ _
  | cons p ps ih =>
      rw [List.forall_mem_cons] at hIgnores
      rcases hIgnores.1 text with
        ⟨e, hRun, hRun'⟩ |
          ⟨a, a', rest, hRun, hRun', hValue⟩
      · simp only [firstMatch, hRun, hRun']
        cases e with
        | parse e => exact ih hIgnores.2
        | _ => exact .error _ _
      · simp only [firstMatch, hRun, hRun']
        exact .inr ⟨a, a', rest, rfl, rfl, hValue⟩

/-
  Greedy repetition ends at the same match.  The induction is
  on the length of the text; as every match consumes, the
  repetition is endless over neither text.
-/
theorem greedy
    (hIgnores : p.IgnoresLineEnds id)
    (hConsumes : p.Consumes)
    (text : List Char) :
    SameOutcome id (Parser.greedy p text)
      (Parser.greedy p (unifyNewlines text)) := by
  induction hLength : text.length
    using Nat.strong_induction_on generalizing text with
  | _ n ih =>
      rw [Parser.greedy, Parser.greedy]
      rcases hIgnores text with
        ⟨e, hRun, hRun'⟩ | ⟨a, _, rest, hRun, hRun', rfl⟩
      · rw [hRun, hRun']
        cases e with
        | parse e => exact .ok _ [] text
        | _ => exact .error _ _
      · have hShorter := hConsumes text a rest hRun
        rw [hRun, hRun']
        simp only [if_pos hShorter,
          if_pos (hConsumes _ _ _ hRun')]
        rcases ih rest.length (hLength ▸ hShorter) rest rfl
          with ⟨e, hLater, hLater'⟩ |
            ⟨as, _, left, hLater, hLater', rfl⟩
        · rw [hLater, hLater']
          exact .error _ e
        · rw [hLater, hLater']
          exact .ok _ (a :: as) left

/- Matching a number of times takes the matches in turn. -/
theorem times
    (hIgnores : p.IgnoresLineEnds id)
    (n : Nat)
    (text : List Char) :
    SameOutcome id (Parser.times p n text)
      (Parser.times p n (unifyNewlines text)) := by
  induction n generalizing text with
  | zero => exact .ok _ [] text
  | succ n ih =>
      rw [Parser.times, Parser.times]
      rcases hIgnores text with
        ⟨e, hRun, hRun'⟩ | ⟨a, _, rest, hRun, hRun', rfl⟩
      · rw [hRun, hRun']
        exact .error _ e
      · rw [hRun, hRun']
        rcases ih rest with
          ⟨e, hLater, hLater'⟩ |
            ⟨as, _, left, hLater, hLater', rfl⟩
        · simp only [hLater, hLater']
          exact .error _ e
        · simp only [hLater, id_eq, hLater']
          exact .ok _ (a :: as) left

theorem atLeast
    (hIgnores : p.IgnoresLineEnds id)
    (hConsumes : p.Consumes)
    (n : Nat) :
    (p.atLeast n).IgnoresLineEnds id := by
  intro text
  simp only [Parser.atLeast]
  rcases hIgnores.times n text with
    ⟨e, hFirst, hFirst'⟩ |
      ⟨as, _, rest, hFirst, hFirst', rfl⟩
  · rw [hFirst, hFirst']
    exact .error _ e
  · rw [hFirst, hFirst']
    rcases hIgnores.greedy hConsumes rest with
      ⟨e, hLater, hLater'⟩ |
        ⟨bs, _, left, hLater, hLater', rfl⟩
    · simp only [hLater, hLater']
      exact .error _ e
    · simp only [hLater, id_eq, hLater']
      exact .ok _ (as ++ bs) left

/- The text ends after both runs or after none. -/
theorem complete
    (hIgnores : p.IgnoresLineEnds id) :
    p.complete.IgnoresLineEnds id := by
  intro text
  simp only [Parser.complete]
  rcases hIgnores text with
    ⟨e, hRun, hRun'⟩ | ⟨a, _, rest, hRun, hRun', rfl⟩
  · rw [hRun, hRun']
    exact .error _ e
  · rw [hRun, hRun']
    cases rest with
    | nil => exact .ok _ a []
    | cons c rest =>
        rcases Text.unifyNewlines_cons_cases c rest with
          ⟨_, hSame⟩ | ⟨_, left, hSame⟩ <;>
        · rw [hSame]
          exact .error _ _

end IgnoresLineEnds

end Parser

------------------------------------------------------------
-- Rows
------------------------------------------------------------

namespace Row

variable {α β γ : Type}
variable {value : α → γ}

/-
  A row ignores line ends when it does so with every skip
  that the translation commutes with.
-/
def IgnoresLineEnds
    (r : Row α)
    (value : α → γ) : Prop :=
  ∀ skip : List Char → List Char,
    (∀ text,
      skip (unifyNewlines text) =
        unifyNewlines (skip text)) →
    ∀ text,
      Parser.SameOutcome value (r.run skip text)
        (r.run skip (unifyNewlines text))

/- No line end is a gap. -/
theorem skipGap_unifyNewlines
    (text : List Char) :
    skipGap (unifyNewlines text) =
      unifyNewlines (skipGap text) :=
  Text.dropWhile_unifyNewlines rfl text

theorem ignoresLineEnds_nil :
    nil.IgnoresLineEnds id :=
  fun _ _ text => .ok _ () text

namespace IgnoresLineEnds

theorem cons
    {δ : Type}
    {value' : β → δ}
    {p : Parser α}
    {r : Row β}
    (hLater : r.IgnoresLineEnds value')
    (hFirst : p.IgnoresLineEnds value) :
    (cons p r).IgnoresLineEnds (Prod.map value value') := by
  intro skip hSkip text
  simp only [Row.cons, hSkip]
  rcases hFirst (skip text) with
    ⟨e, hRun, hRun'⟩ | ⟨a, a', mid, hRun, hRun', hValue⟩
  · rw [hRun, hRun']
    exact .error _ e
  · rw [hRun, hRun']
    rcases hLater skip hSkip mid with
      ⟨e, hRun, hRun'⟩ |
        ⟨b, b', rest, hRun, hRun', hValue'⟩
    · simp only [hRun, hRun']
      exact .error _ e
    · simp only [hRun, hRun']
      exact .inr ⟨(a, b), (a', b'), rest, rfl, rfl,
        Prod.ext hValue hValue'⟩

/- What is built has to be seen in what the row is seen as. -/
theorem sequence
    {δ : Type}
    {value' : β → δ}
    {r : Row α}
    (hIgnores : r.IgnoresLineEnds value)
    (f : α → β)
    (build : γ → δ)
    (hBuild : ∀ a, value' (f a) = build (value a)) :
    (r.sequence fun a => .ok (f a)).IgnoresLineEnds
      value' := by
  intro text
  rcases hIgnores id (fun _ => rfl) text with
    ⟨e, hRun, hRun'⟩ | ⟨a, a', rest, hRun, hRun', hValue⟩
  · simp only [Row.sequence, hRun, hRun']
    exact .error _ e
  · simp only [Row.sequence, hRun, hRun']
    exact .inr ⟨f a, f a', rest, rfl, rfl,
      by rw [hBuild, hBuild, hValue]⟩

/- The gap behind the row is skipped on both sides. -/
theorem spaced
    {δ : Type}
    {value' : β → δ}
    {r : Row α}
    (hIgnores : r.IgnoresLineEnds value)
    (f : α → β)
    (build : γ → δ)
    (hBuild : ∀ a, value' (f a) = build (value a)) :
    (r.spaced fun a => .ok (f a)).IgnoresLineEnds
      value' := by
  intro text
  rcases hIgnores skipGap skipGap_unifyNewlines text with
    ⟨e, hRun, hRun'⟩ | ⟨a, a', rest, hRun, hRun', hValue⟩
  · simp only [Row.spaced, hRun, hRun']
    exact .error _ e
  · simp only [Row.spaced, hRun, hRun',
      skipGap_unifyNewlines]
    exact .inr ⟨f a, f a', skipGap rest, rfl, rfl,
      by rw [hBuild, hBuild, hValue]⟩

theorem afterBlanks
    {δ : Type}
    {r : Row α}
    (hIgnores : r.IgnoresLineEnds value)
    (f : α → β)
    (g : β → δ)
    (build : γ → δ)
    (hBuild : ∀ a, g (f a) = build (value a)) :
    (r.afterBlanks f g).IgnoresLineEnds id :=
  ((ignoresLineEnds_nil.cons
    (hIgnores.spaced f build hBuild)).cons
      Parser.ignoresLineEnds_skipBlanks).sequence
        (fun q => g q.2.1) (fun q => q.2.1) fun _ => rfl

end IgnoresLineEnds

end Row

end Lindenmayer
