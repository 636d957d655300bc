import Lindenmayer.Proofs.Command.Outcome
import Lindenmayer.Proofs.Command.Listing
import Lindenmayer.Proofs.Source.Refusing

/-
  How a command is answered whose bound is invalid.

  A depth is looked at when the unfolding is started, and a
  number of iterations with the first item.  So all commands
  are refused that ask for an item, with nothing written; an
  expansion that asks for none does not notice.

  Key definitions include:
    * `Command.overlooksBound`
    * `Command.firstRefusal`
    * `Command.InvalidBound`

  Correctness is proven by:
    * `Command.renderText_of_isInvalid`
    * `Command.sampleText_of_isInvalid`
    * `Command.expandText_of_isInvalid`
    * `Command.work_of_isInvalid`
    * `Command.invalid_bound_answered`
    * `Command.unasked_iterations_accepted`
-/

------------------------------------------------------------
-- Causes
------------------------------------------------------------

namespace Lindenmayer

namespace Command

/-
  Whether a command asks for no item: its limit is zero, or
  cannot be counted to.  For a depth this makes no difference,
  as it is looked at before the limit.
-/
def overlooksBound : Command → Bool
  | .expand s (some k) _ =>
      match s.bound with
      | .depth _ => false
      | .iterations _ => k = 0 || greatestLimit < k
  | _ => false

/-
  The cause that is noticed first when the bound is invalid.
  A negative limit is noticed before a grammar is read, and a
  turtle is started before an item is asked for.
-/
def firstRefusal : Command → LSystem → ConfigError
  | .render s _ _, l =>
      match s.bound, Turtle.start l.config with
      | .iterations _, .error e => e
      | b, _ => b.refusal
  | .validate s, _ => s.bound.refusal
  | .expand s limit _, _ =>
      if limit.any (· < 0) then .negativeLimit
      else s.bound.refusal

/- What is printed before an invalid bound is noticed. -/
def printedBefore : Command → LSystem → String
  | .validate _, l => account l
  | _, _ => ""

------------------------------------------------------------
-- Unfoldings
------------------------------------------------------------

variable {s : Subject}

/- An unfolding is not started, or refuses its first pull. -/
theorem unfold_of_isInvalid
    (hInvalid : s.bound.isInvalid = true)
    (l : LSystem) :
    (∃ d, s.bound = .depth d) ∧
        unfold s l = .error (.ofConfigError s.bound.refusal) ∨
      (∃ n, s.bound = .iterations n) ∧
        ∃ u, unfold s l = .ok u ∧
          Source.Refuses u s.bound.refusal := by
  rcases Unfolding.start_of_isInvalid hInvalid l.rules
      s.seed.toList with
    ⟨hDepth, hStart⟩ | ⟨hIterations, u, hStart, hRefuses⟩
  · exact .inl ⟨hDepth, by rw [unfold, hStart]⟩
  · exact .inr ⟨hIterations, u, by rw [unfold, hStart],
      hRefuses⟩

theorem renderText_of_isInvalid
    (hInvalid : s.bound.isInvalid = true)
    (output : String)
    (margin : Float)
    (l : LSystem) :
    renderText s margin l =
      .error
        (.ofConfigError
          ((Command.render s output margin).firstRefusal l)) := by
  rcases unfold_of_isInvalid hInvalid l with
    ⟨⟨d, hDepth⟩, hUnfold⟩ |
      ⟨⟨n, hIterations⟩, u, hUnfold, hRefuses⟩
  · rw [renderText, hUnfold]
    simp only [firstRefusal, hDepth]
  · cases hStart : Turtle.start l.config with
    | error e =>
        have hDraw :
            draw l.config u = .error (.ofConfigError e) := by
          rw [draw, hStart]
        rw [renderText, hUnfold]
        simp only [hDraw, firstRefusal, hIterations, hStart]
    | ok t =>
        have hDraw :
            draw l.config u =
              .error (.ofConfigError s.bound.refusal) := by
          simp only [draw, hStart, hRefuses.play_eq meaning]
          rfl
        rw [renderText, hUnfold]
        simp only [hDraw, firstRefusal, hIterations, hStart]

theorem sampleText_of_isInvalid
    (hInvalid : s.bound.isInvalid = true)
    (l : LSystem) :
    sampleText s l =
      .error (.ofConfigError s.bound.refusal) := by
  have hAsked : 0 < sampleSize := by decide
  rcases unfold_of_isInvalid hInvalid l with
    ⟨_, hUnfold⟩ | ⟨_, u, hUnfold, hRefuses⟩
  · rw [sampleText, hUnfold]
  · simp only [sampleText, hUnfold, hRefuses.take_eq hAsked]

/- Items are not written when the first of them is refused. -/
theorem itemsText_of_refuses
    {items : Limited (Unfolding Char)}
    {e : ConfigError}
    (hRefuses : Source.Refuses items e)
    (b : Bound)
    (raw : Bool) :
    itemsText b raw items = .error (.ofConfigError e) := by
  rw [itemsText]
  cases raw with
  | true => simp only [if_true, hRefuses.collect_eq]
  | false =>
      simp only [Bool.false_eq_true, if_false,
        hRefuses.play_eq meaning]
      rfl

theorem expandText_of_isInvalid
    (hInvalid : s.bound.isInvalid = true)
    {limit : Option Int}
    {raw : Bool}
    (hAsked :
      (Command.expand s limit raw).overlooksBound = false)
    (hLimit : limit.any (· < 0) = false)
    (l : LSystem) :
    expandText s limit raw l =
      .error (.ofConfigError s.bound.refusal) := by
  rcases unfold_of_isInvalid hInvalid l with
    ⟨_, hUnfold⟩ | ⟨⟨n, hIterations⟩, u, hUnfold, hRefuses⟩
  · rw [expandText, hUnfold]
  · have hCounted :
        limit.any (greatestLimit < ·) = false ∧
          limit.map Int.toNat ≠ some 0 := by
      cases limit with
      | none => exact ⟨rfl, by simp⟩
      | some k =>
          simp only [overlooksBound, hIterations,
            Bool.or_eq_false_iff, decide_eq_false_iff_not]
            at hAsked
          simp only [Option.any_some, decide_eq_false_iff_not]
            at hLimit
          refine ⟨by simpa using hAsked.2, ?_⟩
          simp only [Option.map_some, ne_eq,
            Option.some.injEq]
          omega
    have hItems :=
      itemsText_of_refuses (hRefuses.limited hCounted.2)
        s.bound raw
    simp only [expandText, hUnfold, hCounted.1,
      Bool.false_eq_true, if_false, hItems]

/- An overlooked bound does not stop the unfolding. -/
theorem exists_unfold_of_overlooksBound
    {limit : Option Int}
    {raw : Bool}
    (hOverlooked :
      (Command.expand s limit raw).overlooksBound = true)
    (l : LSystem) :
    ∃ u, unfold s l = .ok u := by
  cases limit with
  | none => cases hOverlooked
  | some k =>
      cases hBound : s.bound with
      | depth d =>
          simp only [overlooksBound, hBound] at hOverlooked
          cases hOverlooked
      | iterations n =>
          rw [unfold, hBound]
          exact ⟨_, rfl⟩

/- Where no item is asked for there is nothing to write. -/
theorem expandText_zero
    {raw : Bool}
    (hOverlooked :
      (Command.expand s (some 0) raw).overlooksBound = true)
    (l : LSystem) :
    expandText s (some 0) raw l = .ok "\n" := by
  rcases exists_unfold_of_overlooksBound hOverlooked l with
    ⟨u, hUnfold⟩
  have hCounted :
      (some (0 : Int)).any (greatestLimit < ·) = false := by
    decide
  have hItems :
      itemsText s.bound raw ⟨u, some 0⟩ =
        .ok (listing s.bound raw []) :=
    itemsText_eq_listing s.bound raw (Limited.yields_none u)
  have hNothing : listing s.bound raw [] = "" := by
    cases raw <;> cases s.bound <;> rfl
  simp only [expandText, hUnfold, hCounted,
    Bool.false_eq_true, if_false, Option.map_some,
    Int.toNat_zero, hItems, hNothing, String.empty_append]

theorem expandText_of_large
    {k : Int}
    {raw : Bool}
    (hOverlooked :
      (Command.expand s (some k) raw).overlooksBound = true)
    (hLarge : greatestLimit < k)
    (l : LSystem) :
    expandText s (some k) raw l =
      .error (.broken .limitTooLarge) := by
  rcases exists_unfold_of_overlooksBound hOverlooked l with
    ⟨u, hUnfold⟩
  have hCounted :
      (some k).any (greatestLimit < ·) = true := by
    simpa using hLarge
  simp only [expandText, hUnfold, hCounted, if_true]

------------------------------------------------------------
-- Works
------------------------------------------------------------

/- A limit is looked at before the grammar. -/
theorem hasNegativeLimit_expand
    (s : Subject)
    (limit : Option Int)
    (raw : Bool) :
    (Command.expand s limit raw).hasNegativeLimit =
      limit.any (· < 0) := by
  cases limit <;> rfl

/-
  A command that asks for an item stops for the first cause,
  having printed no more than an account.
-/
theorem work_of_isInvalid
    {c : Command}
    (hInvalid : c.subject.bound.isInvalid = true)
    (hNoticed : c.overlooksBound = false)
    (l : LSystem) :
    c.work (.ok l) =
      ⟨c.printedBefore l,
        .stopped (.ofConfigError (c.firstRefusal l))⟩ := by
  cases c with
  | render s output margin =>
      have hText :=
        renderText_of_isInvalid (s := s) hInvalid output margin l
      change renderWork s output margin l = _
      rw [renderWork, hText]
      rfl
  | validate s =>
      have hText := sampleText_of_isInvalid (s := s) hInvalid l
      change validateWork s l = _
      rw [validateWork, hText]
      rfl
  | expand s limit raw =>
      have hText :=
        expandText_of_isInvalid (s := s) hInvalid hNoticed
      rw [work, hasNegativeLimit_expand]
      cases hLimit : limit.any (· < 0) with
      | true =>
          simp only [if_true, firstRefusal, hLimit]
          rfl
      | false =>
          simp only [Bool.false_eq_true, if_false, workOn,
            hText hLimit l, firstRefusal, hLimit]
          rfl

/- An expansion that overlooks its bound, by its limit. -/
theorem cases_of_overlooksBound
    {c : Command}
    (hOverlooked : c.overlooksBound = true) :
    ∃ s k raw, c = .expand s (some k) raw ∧
      (k = 0 ∨ greatestLimit < k) := by
  unfold overlooksBound at hOverlooked
  split at hOverlooked
  · rename_i s k raw
    split at hOverlooked
    · cases hOverlooked
    · exact ⟨s, k, raw, rfl, by simpa using hOverlooked⟩
  · cases hOverlooked

/- Up to a limit of zero the work is done with a line end. -/
theorem work_of_zero
    {raw : Bool}
    (hOverlooked :
      (Command.expand s (some 0) raw).overlooksBound = true)
    (l : LSystem) :
    (Command.expand s (some 0) raw).work (.ok l) =
      ⟨"\n", .done⟩ := by
  change Work.ofText (expandText s (some 0) raw l) = _
  rw [expandText_zero hOverlooked]
  rfl

theorem work_of_large
    {k : Int}
    {raw : Bool}
    (hOverlooked :
      (Command.expand s (some k) raw).overlooksBound = true)
    (hLarge : greatestLimit < k)
    (l : LSystem) :
    (Command.expand s (some k) raw).work (.ok l) =
      .stopped (.broken .limitTooLarge) := by
  have hLimit : (some k).any (· < 0) = false := by
    have hPositive : 0 < greatestLimit := by decide
    simp only [Option.any_some, decide_eq_false_iff_not]
    omega
  rw [work, hasNegativeLimit_expand, hLimit]
  simp only [Bool.false_eq_true, if_false, workOn,
    expandText_of_large hOverlooked hLarge, Work.ofText]

/- No blank value is refused like the config of a turtle. -/
theorem refusal?_ne_of_start
    {c : Config}
    {e : ConfigError}
    (hStart : Turtle.start c = .error e)
    (b : Blank) :
    b.refusal? ≠ some e := by
  unfold Turtle.start at hStart
  split at hStart
  · cases hStart
    cases b <;> decide
  · split at hStart
    · cases hStart
      cases b <;> decide
    · split at hStart
      · cases hStart
        cases b <;> decide
      · cases hStart

/- A blank bound or limit is refused like an invalid one. -/
theorem cases_of_refusal?
    {c : Command}
    {l : LSystem}
    {b : Blank}
    (hBlank : b.refusal? = some (c.firstRefusal l)) :
    b = .depth ∨ b = .iterations ∨
      b = .limit ∧ c.hasNegativeLimit = true := by
  have hBound (bound : Bound)
      (hSame : b.refusal? = some bound.refusal) :
      b = .depth ∨ b = .iterations := by
    cases bound <;> cases b <;>
      simp [Bound.refusal] at hSame ⊢
  cases c with
  | render s output margin =>
      simp only [firstRefusal] at hBlank
      split at hBlank
      · rename_i hStart
        exact absurd hBlank (refusal?_ne_of_start hStart b)
      · exact (hBound _ hBlank).imp_right .inl
  | validate s => exact (hBound _ hBlank).imp_right .inl
  | expand s limit raw =>
      rw [hasNegativeLimit_expand]
      simp only [firstRefusal] at hBlank
      split at hBlank
      · rename_i hLimit
        cases b <;> simp [hLimit] at hBlank ⊢
      · exact (hBound _ hBlank).imp_right .inl

theorem blankOf_firstRefusal
    {blanks : List Blank}
    {c : Command}
    (hDepth : .depth ∉ blanks)
    (hIterations : .iterations ∉ blanks)
    (hLimit : c.hasNegativeLimit = true → .limit ∉ blanks)
    (l : LSystem) :
    blankOf blanks (c.firstRefusal l) = none := by
  rw [blankOf, List.find?_eq_none]
  intro b hMember hBlank
  rcases cases_of_refusal? (of_decide_eq_true hBlank) with
    rfl | rfl | ⟨rfl, hNegative⟩
  · exact hDepth hMember
  · exact hIterations hMember
  · exact hLimit hNegative hMember

------------------------------------------------------------
-- Answers
------------------------------------------------------------

/-
  The reports on a request with an invalid bound.  It is told
  to the user by a line of configuration errors, unless an
  expansion overlooks the bound or its limit is blank.
-/
inductive InvalidBound
    (r : Request)
    (l : LSystem) : Report → Prop where
  | told
      (hNoticed : r.command.overlooksBound = false)
      (hNumber :
        r.command.hasNegativeLimit = true →
          .limit ∉ r.blanks) :
      InvalidBound r l
        ⟨r.command.printedBefore l,
          (Refusal.config (r.command.firstRefusal l)).line,
          .ok 2⟩
  | unasked
      {s : Subject}
      {raw : Bool}
      (hOverlooked : r.command.overlooksBound = true)
      (hCommand : r.command = .expand s (some 0) raw) :
      InvalidBound r l ⟨"\n", "", .ok 0⟩
  | limitTooLarge
      {s : Subject}
      {k : Int}
      {raw : Bool}
      (hOverlooked : r.command.overlooksBound = true)
      (hCommand : r.command = .expand s (some k) raw)
      (hLimit : greatestLimit < k) :
      InvalidBound r l ⟨"", "", .error .limitTooLarge⟩
  | blankLimit
      (hLimit : r.command.hasNegativeLimit = true)
      (hBlank : .limit ∈ r.blanks) :
      InvalidBound r l ⟨"", "", .error (.blank .limit)⟩

section Answers

variable {words : List String}
variable {r : Request}
variable {l : LSystem}
variable {t : Files.Tree}

/- A bound that is noticed is told, unless a limit is blank. -/
theorem answer_of_noticed
    (hRequest : ofWords words = .ok r)
    (hGrammar :
      LSystem.ofFile r.command.subject.grammar
        (t.read r.command.subject.grammar) = .ok l)
    (hInvalid : r.command.subject.bound.isInvalid = true)
    (hDepth : .depth ∉ r.blanks)
    (hIterations : .iterations ∉ r.blanks)
    (hNoticed : r.command.overlooksBound = false) :
    ∃ report,
      answer Files.Tree.disk words t = (.ok report, t) ∧
        InvalidBound r l report := by
  by_cases hBlank :
    r.command.hasNegativeLimit = true ∧ .limit ∈ r.blanks
  · have hWork :
        r.work (.ok l) =
          .stopped (.broken (.blank .limit)) := by
      rw [work_of_hasNegativeLimit hBlank.1, if_pos hBlank.2]
    exact ⟨_, answer_of_stopped hRequest hGrammar hWork,
      .blankLimit hBlank.1 hBlank.2⟩
  · have hNumber :
        r.command.hasNegativeLimit = true →
          .limit ∉ r.blanks :=
      fun hNegative hLimit => hBlank ⟨hNegative, hLimit⟩
    have hWork :
        r.work (.ok l) =
          ⟨r.command.printedBefore l,
            .stopped
              (.ofConfigError (r.command.firstRefusal l))⟩ := by
      rw [Request.work, work_of_isInvalid hInvalid hNoticed]
      simp only [Stop.ofConfigError, Ending.withBlanks,
        blankOf_firstRefusal hDepth hIterations hNumber]
    exact ⟨_, answer_of_stopped hRequest hGrammar hWork,
      .told hNoticed hNumber⟩

/- A bound that is overlooked is not told. -/
theorem answer_of_overlooked
    (hRequest : ofWords words = .ok r)
    (hGrammar :
      LSystem.ofFile r.command.subject.grammar
        (t.read r.command.subject.grammar) = .ok l)
    (hOverlooked : r.command.overlooksBound = true) :
    ∃ report,
      answer Files.Tree.disk words t = (.ok report, t) ∧
        InvalidBound r l report := by
  rcases cases_of_overlooksBound hOverlooked with
    ⟨s, k, raw, hCommand, hLimit⟩
  have hExpand := hOverlooked
  rw [hCommand] at hExpand
  rcases hLimit with rfl | hLarge
  · have hWork := work_of_zero hExpand l
    rw [← hCommand, ← hGrammar] at hWork
    exact ⟨_, answer_of_done t hRequest hWork,
      .unasked hOverlooked hCommand⟩
  · have hWork :
        r.work (.ok l) = .stopped (.broken .limitTooLarge) := by
      rw [Request.work, hCommand,
        work_of_large hExpand hLarge]
      rfl
    exact ⟨_, answer_of_stopped hRequest hGrammar hWork,
      .limitTooLarge hOverlooked hCommand hLarge⟩

/-
  Every command line with a depth below one or a negative
  number of iterations, for a command on a grammar that is
  read, leaves all files as they are and prints no items.  It
  ends with exit code two and the line of a configuration
  error.  Only an expansion up to a limit that is zero, too
  large or blank does not: with a limit of zero it succeeds.
-/
theorem invalid_bound_answered
    (hRequest : ofWords words = .ok r)
    (hGrammar :
      LSystem.ofFile r.command.subject.grammar
        (t.read r.command.subject.grammar) = .ok l)
    (hInvalid : r.command.subject.bound.isInvalid = true)
    (hDepth : .depth ∉ r.blanks)
    (hIterations : .iterations ∉ r.blanks) :
    ∃ report,
      answer Files.Tree.disk words t = (.ok report, t) ∧
        InvalidBound r l report := by
  cases hNoticed : r.command.overlooksBound with
  | true =>
      exact answer_of_overlooked hRequest hGrammar hNoticed
  | false =>
      exact answer_of_noticed hRequest hGrammar hInvalid hDepth
        hIterations hNoticed

end Answers

/- A drawing with a negative number of iterations. -/
theorem invalid_bound_answered_drawing :
    let rules : List (Rule Char) := [⟨'F', ['F', '+', 'F']⟩]
    let source := String.ofList (FileFormat.plain [] rules)
    let t : Files.Tree := ⟨[], [(["g"], .file source.toUTF8)]⟩
    let words :=
      ["render", "g", "o.svg", "--margin=0", "--iterations=-1"]
    let r : Request :=
      ⟨.render ⟨"g", "F", .iterations (-1)⟩ "o.svg" 0.0, []⟩
    ofWords words = .ok r ∧
      r.command.subject.bound.isInvalid = true ∧
      answer Files.Tree.disk words t =
        (.ok ⟨"", "Config error: iterations must be >= 0\n",
          .ok 2⟩, t) := by
  intro rules source t words r
  have hRequest : ofWords words = .ok r := by
    decide +kernel
  have hGrammar :
      LSystem.ofFile "g" (t.read "g") =
        .ok ⟨.ofPairs rules, {}⟩ :=
    FileFormat.ofFile_plain "g" [] rules rfl (by decide)
      (List.cons_ne_nil _ _)
  rcases invalid_bound_answered hRequest hGrammar rfl
      List.not_mem_nil List.not_mem_nil with
    ⟨report, hAnswer, hReport⟩
  refine ⟨hRequest, rfl, ?_⟩
  rw [hAnswer]
  cases hReport with
  | told hNoticed hNumber =>
      have hLine :
          (Refusal.config
              (r.command.firstRefusal
                ⟨.ofPairs rules, {}⟩)).line =
            "Config error: iterations must be >= 0\n" := by
        decide +kernel
      exact hLine ▸ rfl
  | unasked hOverlooked hCommand => cases hCommand
  | limitTooLarge hOverlooked hCommand hLimit => cases hCommand
  | blankLimit hLimit hBlank => cases hLimit

/-
  With a limit of zero a negative number of iterations is
  accepted, while a depth of zero is told to be too small.
-/
theorem unasked_iterations_accepted :
    let source := "render:\nrules:\nF=>F+F\n"
    let t : Files.Tree := ⟨[], [(["g"], .file source.toUTF8)]⟩
    let ending (words : List String) :=
      (answer Files.Tree.disk words t).1.map
        fun report => (report.result, report.complaint)
    ending ["expand", "g", "--iterations", "-1", "--limit",
        "0"] =
        .ok (.ok 0, "") ∧
      ending ["expand", "g", "--depth", "0", "--limit", "0"] =
        .ok (.ok 2,
          "Config error: max_depth must be >= 1\n") := by
  decide +kernel

end Command

end Lindenmayer
