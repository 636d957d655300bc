import Lindenmayer.Proofs.Command.Outcome
import Lindenmayer.Proofs.Command.Unfolded
import Lindenmayer.Proofs.Grammar.PlainFile

/-
  What an account of a grammar counts.

  The items are counted exactly as long as there are fewer of
  them than a sample has.  From this number on, and not only
  beyond it, the number is marked and a warning is given.

  Key definitions include:
    * `Command.countLine`
    * `Command.warning`
    * `Command.SampledAs`

  Correctness is proven by:
    * `Command.sampledAs_countLines`
    * `Command.answer_validate`
    * `Command.items_counted`
    * `Command.whole_sample_warned`
-/

------------------------------------------------------------
-- Counts
------------------------------------------------------------

namespace Lindenmayer

namespace Command

/- The line that counts items, and pushes and pops. -/
def countLine
    (b : Bound)
    (count : String)
    (pushes pops : Nat) : String :=
  match b with
  | .iterations _ => "symbols (sampled): " ++ count ++ "\n"
  | .depth _ =>
      "events (sampled): " ++ count ++
        " (push=" ++ toString pushes ++
        " pop=" ++ toString pops ++ ")\n"

/- The line that warns of items that are not counted. -/
def warning : String :=
  "warning: expansion exceeds " ++ toString sampleSize ++
    " items; counts are based on the first portion only\n"

/-
  The lines that count items: all of them and what is pushed
  and popped, which is equally often; or those of the sample,
  marked and with a warning.
-/
inductive SampledAs
    (b : Bound)
    (items : List (Item Char)) : String → Prop where
  | whole
      (n : Nat)
      (hFew : items.length < sampleSize)
      (hPushes : items.countP (isEvent .push) = n)
      (hPops : items.countP (isEvent .pop) = n) :
      SampledAs b items
        (countLine b (toString items.length) n n)
  | portion
      (hMany : sampleSize ≤ items.length) :
      SampledAs b items
        (countLine b (toString sampleSize ++ "+")
            ((items.take sampleSize).countP (isEvent .push))
            ((items.take sampleSize).countP (isEvent .pop)) ++
          warning)

/-
  The first items are counted as a whole when the sample is
  not used up by them.
-/
theorem sampledAs_countLines
    {s : Subject}
    {l : LSystem}
    {items : List (Item Char)}
    (hItems : Unfolds s l items) :
    SampledAs s.bound items
      (countLines s.bound (items.take sampleSize)) := by
  by_cases hMany : sampleSize ≤ items.length
  · have hLength :
        (items.take sampleSize).length = sampleSize :=
      List.length_take_of_le hMany
    have hLines :
        countLines s.bound (items.take sampleSize) =
          countLine s.bound (toString sampleSize ++ "+")
              ((items.take sampleSize).countP (isEvent .push))
              ((items.take sampleSize).countP
                (isEvent .pop)) ++
            warning := by
      simp only [countLines, hLength, decide_true, if_true]
      cases s.bound <;> rfl
    rw [hLines]
    exact .portion hMany
  · have hFew : items.length < sampleSize := by omega
    have hAll : items.take sampleSize = items :=
      List.take_of_length_le (Nat.le_of_lt hFew)
    have hLines :
        countLines s.bound items =
          countLine s.bound (toString items.length)
            (items.countP (isEvent .pop))
            (items.countP (isEvent .pop)) := by
      simp only [countLines, hItems.count_push,
        Nat.ne_of_lt hFew, decide_false, Bool.false_eq_true,
        if_false, String.append_empty]
      cases s.bound <;> rfl
    rw [hAll, hLines]
    exact .whole _ hFew hItems.count_push rfl

------------------------------------------------------------
-- Answers
------------------------------------------------------------

/-
  With a valid bound the account is followed by the lines that
  count the first items.
-/
theorem answer_validate
    {words : List String}
    {r : Request}
    {s : Subject}
    {l : LSystem}
    {u : Unfolding Char}
    {items : List (Item Char)}
    (t : Files.Tree)
    (hRequest : ofWords words = .ok r)
    (hCommand : r.command = .validate s)
    (hGrammar :
      LSystem.ofFile s.grammar (t.read s.grammar) = .ok l)
    (hUnfold : unfold s l = .ok u)
    (hYields : Source.Yields u items) :
    answer Files.Tree.disk words t =
      (.ok
        (.success
          (account l ++
            countLines s.bound (items.take sampleSize))), t) := by
  apply answer_of_done t hRequest
  have hText :
      sampleText s l =
        .ok (countLines s.bound (items.take sampleSize)) := by
    simp only [sampleText, hUnfold,
      (hYields.take_eq sampleSize).1]
  simp only [hCommand, subject, hGrammar, work,
    hasNegativeLimit, Bool.false_eq_true, if_false, workOn,
    validateWork, hText]

/-
  For every grammar that is read, and every seed and valid
  bound, the account ends with the lines that count the items.
-/
theorem items_counted
    (t : Files.Tree)
    (words : List String)
    (r : Request)
    (s : Subject)
    (l : LSystem)
    (hRequest : ofWords words = .ok r)
    (hCommand : r.command = .validate s)
    (hGrammar :
      LSystem.ofFile s.grammar (t.read s.grammar) = .ok l)
    (hBound : s.HasValidBound) :
    ∃ items lines,
      Unfolds s l items ∧
      SampledAs s.bound items lines ∧
      answer Files.Tree.disk words t =
        (.ok (.success (account l ++ lines)), t) := by
  rcases exists_unfolds hBound l with
    ⟨u, items, hUnfold, hYields, hItems⟩
  exact ⟨items, _, hItems, sampledAs_countLines hItems,
    answer_validate t hRequest hCommand hGrammar hUnfold
      hYields⟩

/- Ten symbols for one, in three rounds: not a whole sample. -/
theorem items_counted_thousand :
    let rules : List (Rule Char) :=
      [⟨'F', List.replicate 10 'F'⟩]
    let source := String.ofList (FileFormat.plain [] rules)
    let t : Files.Tree := ⟨[], [(["g"], .file source.toUTF8)]⟩
    let words := ["validate", "g", "--iterations", "3"]
    let s : Subject := ⟨"g", "F", .iterations 3⟩
    let l : LSystem := ⟨.ofPairs rules, {}⟩
    ofWords words = .ok ⟨.validate s, []⟩ ∧
      LSystem.ofFile "g" (t.read "g") = .ok l ∧
      s.HasValidBound ∧
      ∃ items,
        Unfolds s l items ∧
        items.length = 1000 ∧
        answer Files.Tree.disk words t =
          (.ok
            (.success
              (account l ++ "symbols (sampled): 1000\n")),
            t) := by
  intro rules source t words s l
  have hRequest : ofWords words = .ok ⟨.validate s, []⟩ := by
    decide +kernel
  have hGrammar : LSystem.ofFile "g" (t.read "g") = .ok l :=
    FileFormat.ofFile_only_plain rules (by decide)
      (List.cons_ne_nil _ _)
  have hBound : s.HasValidBound := by
    simp [s, Subject.HasValidBound]
  have hLength :
      ((l.rules.rounds 3 s.seed.toList).map
        Item.symbol).length = 1000 := by
    decide +kernel
  rcases items_counted t words _ s l hRequest rfl hGrammar
      hBound with
    ⟨items, lines, hItems, hSampled, hAnswer⟩
  have hWord :
      l.rules.generation s.seed.toList 3 =
        .ok (l.rules.rounds 3 s.seed.toList) :=
    rfl
  cases hItems.unique (.flat rfl hWord)
  refine ⟨hRequest, hGrammar, hBound, _, hItems, hLength, ?_⟩
  cases hSampled with
  | whole n hFew hPushes hPops =>
      rw [hLength] at hAnswer
      exact hAnswer
  | portion hMany =>
      rw [hLength] at hMany
      exact absurd hMany (by decide)

/-
  In four rounds there are as many symbols as a sample has and
  no more, but it is warned that there are more.
-/
theorem whole_sample_warned :
    let rules : List (Rule Char) :=
      [⟨'F', List.replicate 10 'F'⟩]
    let source := String.ofList (FileFormat.plain [] rules)
    let t : Files.Tree := ⟨[], [(["g"], .file source.toUTF8)]⟩
    let words := ["validate", "g", "--iterations", "4"]
    let s : Subject := ⟨"g", "F", .iterations 4⟩
    let l : LSystem := ⟨.ofPairs rules, {}⟩
    ofWords words = .ok ⟨.validate s, []⟩ ∧
      LSystem.ofFile "g" (t.read "g") = .ok l ∧
      ∃ items,
        Unfolds s l items ∧
        items.length = 10000 ∧
        answer Files.Tree.disk words t =
          (.ok
            (.success
              (account l ++
                ("symbols (sampled): 10000+\n" ++
                  warning))), t) := by
  intro rules source t words s l
  have hRequest : ofWords words = .ok ⟨.validate s, []⟩ := by
    decide +kernel
  have hGrammar : LSystem.ofFile "g" (t.read "g") = .ok l :=
    FileFormat.ofFile_only_plain rules (by decide)
      (List.cons_ne_nil _ _)
  have hLength :
      (l.rules.rounds 4 s.seed.toList).length = 10000 := by
    decide +kernel
  have hYields :=
    Unfolding.flat_yields
      (Expansion.yields_rounds l.rules s.seed.toList 4)
  have hAnswer := answer_validate t hRequest rfl hGrammar
    (show unfold s l =
      .ok (.flat (.unchecked l.rules s.seed.toList 4)) from rfl)
    hYields
  have hLines :
      countLines s.bound
          (((l.rules.rounds 4 s.seed.toList).map Item.symbol).take
            sampleSize) =
        "symbols (sampled): 10000+\n" ++ warning := by
    rw [List.take_of_length_le
      (by rw [List.length_map, hLength]; exact le_refl _)]
    simp only [countLines, List.length_map, hLength]
    rfl
  rw [hLines] at hAnswer
  exact ⟨hRequest, hGrammar, _, .flat rfl rfl,
    (List.length_map _).trans hLength, hAnswer⟩

end Command

end Lindenmayer
