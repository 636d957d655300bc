import Lindenmayer.Command.Session
import Lindenmayer.Proofs.Play.Refusals

/-
  What the work of a command can come to, and what is left of
  it when it is brought to its end.

  All that can be wrong with a command comes up before there
  is anything to print or to write, but for the account of a
  grammar, which is given line by line.

  Key definitions include:
    * `Command.ComesTo`

  Correctness is proven by:
    * `Command.comesTo_work`
    * `Command.Ending.withBlanks_cases`
    * `Command.work_of_hasNegativeLimit`
    * `Command.finish_writing`
    * `Command.answer_eq_finish`
    * `Command.answer_cases`
    * `Command.answer_of_done`
    * `Command.answer_of_stopped`
-/

------------------------------------------------------------
-- Works
------------------------------------------------------------

namespace Lindenmayer

namespace Command

/-
  The works that a command may come to, by what is read.  In
  a drawing the turtle may get stuck, and a limit may be too
  large; all else that stops a command on a grammar is a
  configuration error.
-/
inductive ComesTo :
    Command → Except LoadError LSystem → Work → Prop where
  | unread
      (c : Command)
      (e : LoadError) :
      ComesTo c (.error e) (.stopped (.ofLoadError e))
  | refused
      {c : Command}
      {read : Except LoadError LSystem}
      (e : ConfigError) :
      ComesTo c read (.stopped (.ofConfigError e))
  | stuck
      {s : Subject}
      {output : String}
      {margin : Float}
      {l : LSystem}
      {w : Unfolding Char}
      {t u : Turtle}
      (hUnfold : unfold s l = .ok w)
      (hStart : Turtle.start l.config = .ok t)
      (hPlay :
        Renderer.play meaning (.turtle t) w =
          ⟨.turtle u, some .infiniteHeading⟩)
      (hStuck : u.Stuck) :
      ComesTo (.render s output margin) (.ok l)
        (.stopped (.broken (.drawing .infiniteHeading)))
  | tooLarge
      {s : Subject}
      {n : Int}
      {raw : Bool}
      {l : LSystem}
      (hLimit : greatestLimit < n) :
      ComesTo (.expand s (some n) raw) (.ok l)
        (.stopped (.broken .limitTooLarge))
  | drawn
      {s : Subject}
      {output : String}
      {margin : Float}
      {l : LSystem}
      {text : String}
      (hText : renderText s margin l = .ok text) :
      ComesTo (.render s output margin) (.ok l)
        ⟨"", .writing output text⟩
  | expanded
      {s : Subject}
      {limit : Option Int}
      {raw : Bool}
      {l : LSystem}
      {text : String}
      (hText : expandText s limit raw l = .ok text) :
      ComesTo (.expand s limit raw) (.ok l) ⟨text, .done⟩
  | sampled
      {s : Subject}
      {l : LSystem}
      {text : String}
      (hText : sampleText s l = .ok text) :
      ComesTo (.validate s) (.ok l)
        ⟨account l ++ text, .done⟩
  | unsampled
      {s : Subject}
      {l : LSystem}
      {e : ConfigError}
      (hText : sampleText s l = .error (.ofConfigError e)) :
      ComesTo (.validate s) (.ok l)
        ⟨account l, .stopped (.ofConfigError e)⟩

/- An unfolding is refused by configuration errors only. -/
theorem unfold_cases
    (s : Subject)
    (l : LSystem) :
    (∃ w, unfold s l = .ok w) ∨
      ∃ e, unfold s l = .error (.ofConfigError e) := by
  rw [unfold]
  cases Unfolding.start l.rules s.seed.toList s.bound with
  | ok w => exact .inl ⟨w, rfl⟩
  | error e => exact .inr ⟨e, rfl⟩

------------------------------------------------------------
-- Rendering
------------------------------------------------------------

/- The turtle that is started for a drawing is sound. -/
theorem draw_cases
    (c : Config)
    (w : Unfolding Char) :
    (∃ ls, draw c w = .ok ls) ∨
      (∃ e, draw c w = .error (.ofConfigError e)) ∨
      ∃ t u, Turtle.start c = .ok t ∧
        Renderer.play meaning (.turtle t) w =
          ⟨.turtle u, some .infiniteHeading⟩ ∧
        u.Stuck ∧
        draw c w =
          .error (.broken (.drawing .infiniteHeading)) := by
  rw [draw]
  cases hStart : Turtle.start c with
  | error e => exact .inr (.inl ⟨e, rfl⟩)
  | ok t =>
      have hPlayed :=
        (Turtle.sound_start hStart).played meaning w
      generalize hPlay :
        Renderer.play meaning (.turtle t) w = r at hPlayed
      cases hPlayed with
      | finished u =>
          simp only [hPlay]
          exact .inl ⟨_, rfl⟩
      | refused u e =>
          simp only [hPlay]
          exact .inr (.inl ⟨e, rfl⟩)
      | stuck hStuck =>
          simp only [hPlay]
          exact .inr (.inr ⟨t, _, rfl, hPlay, hStuck, rfl⟩)

theorem comesTo_renderWork
    (s : Subject)
    (output : String)
    (margin : Float)
    (l : LSystem) :
    ComesTo (.render s output margin) (.ok l)
      (renderWork s output margin l) := by
  cases hText : renderText s margin l with
  | ok text =>
      rw [renderWork, hText]
      exact .drawn hText
  | error e =>
      rw [renderWork, hText]
      rw [renderText] at hText
      rcases unfold_cases s l with
        ⟨w, hUnfold⟩ | ⟨e', hUnfold⟩
      · rw [hUnfold] at hText
        rcases draw_cases l.config w with
          ⟨ls, hDraw⟩ | ⟨e', hDraw⟩ |
            ⟨t, u, hStart, hPlay, hStuck, hDraw⟩
        · simp only [hDraw] at hText
          split at hText <;> cases hText
          exact .refused _
        · simp only [hDraw] at hText
          cases hText
          exact .refused e'
        · simp only [hDraw] at hText
          cases hText
          exact .stuck hUnfold hStart hPlay hStuck
      · rw [hUnfold] at hText
        cases hText
        exact .refused e'

------------------------------------------------------------
-- Validating and Expanding
------------------------------------------------------------

theorem comesTo_validateWork
    (s : Subject)
    (l : LSystem) :
    ComesTo (.validate s) (.ok l) (validateWork s l) := by
  cases hText : sampleText s l with
  | ok text =>
      rw [validateWork, hText]
      exact .sampled hText
  | error e =>
      rw [validateWork, hText]
      have hSample := hText
      rw [sampleText] at hSample
      rcases unfold_cases s l with
        ⟨w, hUnfold⟩ | ⟨e', hUnfold⟩
      · rw [hUnfold] at hSample
        simp only at hSample
        split at hSample <;> cases hSample
        exact .unsampled hText
      · rw [hUnfold] at hSample
        cases hSample
        exact .unsampled hText

/- Items are written unless their source refuses. -/
theorem itemsText_cases
    (b : Bound)
    (raw : Bool)
    (items : Limited (Unfolding Char)) :
    (∃ text, itemsText b raw items = .ok text) ∨
      ∃ e, itemsText b raw items =
        .error (.ofConfigError e) := by
  rw [itemsText]
  cases raw with
  | true =>
      rcases Source.collect items with ⟨is, _ | e⟩
      · exact .inl ⟨_, rfl⟩
      · exact .inr ⟨e, rfl⟩
  | false =>
      rcases Renderer.play_collector_cases meaning "" items
        with ⟨text, hPlay | ⟨e, hPlay⟩⟩
      · simp only [hPlay]
        exact .inl ⟨_, rfl⟩
      · simp only [hPlay]
        exact .inr ⟨e, rfl⟩

theorem comesTo_expandText
    (s : Subject)
    (limit : Option Int)
    (raw : Bool)
    (l : LSystem) :
    ComesTo (.expand s limit raw) (.ok l)
      (.ofText (expandText s limit raw l)) := by
  cases hText : expandText s limit raw l with
  | ok text => exact .expanded hText
  | error e =>
      rw [expandText] at hText
      rcases unfold_cases s l with
        ⟨w, hUnfold⟩ | ⟨e', hUnfold⟩
      · rw [hUnfold] at hText
        simp only at hText
        split at hText
        · rename_i hLimit
          cases hText
          rcases Option.any_eq_true _ _ |>.mp hLimit with
            ⟨n, rfl, hLarge⟩
          exact .tooLarge (by simpa using hLarge)
        · rcases itemsText_cases s.bound raw
              ⟨w, limit.map Int.toNat⟩ with
            ⟨text, hItems⟩ | ⟨e', hItems⟩
          · rw [hItems] at hText
            cases hText
          · rw [hItems] at hText
            cases hText
            exact .refused e'
      · rw [hUnfold] at hText
        cases hText
        exact .refused e'

/- Every work of a command is one of these. -/
theorem comesTo_work
    (c : Command)
    (read : Except LoadError LSystem) :
    c.ComesTo read (c.work read) := by
  unfold work
  split
  · exact .refused .negativeLimit
  · cases read with
    | error e => exact .unread c e
    | ok l =>
        cases c with
        | render s output margin =>
            exact comesTo_renderWork s output margin l
        | validate s => exact comesTo_validateWork s l
        | expand s limit raw =>
            exact comesTo_expandText s limit raw l

------------------------------------------------------------
-- Blank Values
------------------------------------------------------------

/- A blank value makes a breakdown of an ending at most. -/
theorem Ending.withBlanks_cases
    (blanks : List Blank)
    (e : Ending) :
    e.withBlanks blanks = e ∨
      ∃ b ∈ blanks,
        e.withBlanks blanks = .stopped (.broken (.blank b)) := by
  unfold withBlanks
  split
  · rename_i e'
    split
    · rename_i b hBlank
      exact .inr ⟨b, List.mem_of_find?_eq_some hBlank, rfl⟩
    · exact .inl rfl
  · rename_i path content
    split
    · rename_i hBlank
      exact .inr ⟨.output, hBlank, rfl⟩
    · exact .inl rfl
  · exact .inl rfl

/- A negative limit may stand for one that is blank. -/
theorem blankOf_negativeLimit
    (blanks : List Blank) :
    blankOf blanks .negativeLimit =
      if .limit ∈ blanks then some .limit else none := by
  unfold blankOf
  induction blanks with
  | nil => rfl
  | cons b blanks ih =>
      rw [List.find?_cons, ih]
      cases b <;> simp

/- It is noticed before anything that was read. -/
theorem work_of_hasNegativeLimit
    {r : Request}
    (hLimit : r.command.hasNegativeLimit = true)
    (read : Except LoadError LSystem) :
    r.work read =
      .stopped
        (if .limit ∈ r.blanks then .broken (.blank .limit)
        else .ofConfigError .negativeLimit) := by
  have hWork :
      r.command.work read =
        .stopped (.ofConfigError .negativeLimit) := by
    unfold work
    rw [if_pos hLimit]
  rw [Request.work, hWork]
  simp only [Work.stopped, Stop.ofConfigError,
    Ending.withBlanks, blankOf_negativeLimit]
  by_cases hBlank : .limit ∈ r.blanks
  · simp only [if_pos hBlank]
  · simp only [if_neg hBlank]

------------------------------------------------------------
-- Reports
------------------------------------------------------------

/- Every cause is told by a line, which is ended. -/
theorem Refusal.exists_line
    (r : Refusal) :
    ∃ text, r.line = text ++ "\n" := by
  cases r with
  | grammar e => cases e <;> exact ⟨_, rfl⟩
  | config e => exact ⟨_, rfl⟩
  | access f path => exact ⟨_, rfl⟩

theorem Refusal.line_ne_empty
    (r : Refusal) :
    r.line ≠ "" := by
  rcases r.exists_line with ⟨text, hLine⟩
  rw [hLine]
  simp

/- What is done ends well and touches nothing. -/
@[simp] theorem finish_done
    (printed : String)
    (t : Files.Tree) :
    finish Files.Tree.disk ⟨printed, .done⟩ t =
      (.success printed, t) :=
  rfl

/- What is stopped touches nothing. -/
@[simp] theorem finish_stopped
    (printed : String)
    (s : Stop)
    (t : Files.Tree) :
    finish Files.Tree.disk ⟨printed, .stopped s⟩ t =
      (.ofStop printed s, t) :=
  rfl

/- Only writing touches the tree. -/
@[simp] theorem finish_writing
    (printed path content : String)
    (t : Files.Tree) :
    finish Files.Tree.disk
        ⟨printed, .writing path content⟩ t =
      match t.write path content with
      | (.ok (), u) => (.success printed, u)
      | (.error e, u) =>
          (.ofStop printed (.ofAccessError e), u) := by
  simp only [finish, bind, StateT.bind, Files.Tree.disk]
  rcases t.write path content with ⟨_ | _, u⟩ <;> rfl

/- A command line is answered by bringing a work to its end. -/
theorem answer_eq_finish
    {words : List String}
    {r : Request}
    {t : Files.Tree}
    {read : Except LoadError LSystem}
    (hRequest : ofWords words = .ok r)
    (hRead :
      LSystem.ofFile r.command.subject.grammar
        (t.read r.command.subject.grammar) = read) :
    answer Files.Tree.disk words t =
      (.ok (finish Files.Tree.disk (r.work read) t).1,
        (finish Files.Tree.disk (r.work read) t).2) := by
  rw [answer, hRequest, ← hRead]
  rfl

/-
  The work is that of the command, unless a blank value breaks
  it down.
-/
theorem answer_cases
    {words : List String}
    {r : Request}
    (hRequest : ofWords words = .ok r)
    (t : Files.Tree)
    {read : Except LoadError LSystem}
    (hRead :
      LSystem.ofFile r.command.subject.grammar
        (t.read r.command.subject.grammar) = read) :
    (∃ report u,
        finish Files.Tree.disk (r.command.work read) t =
          (report, u) ∧
        answer Files.Tree.disk words t = (.ok report, u)) ∨
      ∃ b ∈ r.blanks,
        answer Files.Tree.disk words t =
          (.ok (.ofStop (r.command.work read).printed
            (.broken (.blank b))), t) := by
  rw [answer_eq_finish hRequest hRead, Request.work]
  generalize r.command.work read = w
  rcases w.ending.withBlanks_cases r.blanks with
    hSame | ⟨b, hBlank, hBroken⟩
  · simp only [hSame]
    exact .inl ⟨_, _, rfl, rfl⟩
  · simp only [hBroken]
    exact .inr ⟨b, hBlank, rfl⟩

/- Work that is done is answered by what it prints. -/
theorem answer_of_done
    {words : List String}
    {r : Request}
    {text : String}
    (t : Files.Tree)
    (hRequest : ofWords words = .ok r)
    (hWork :
      r.command.work
          (LSystem.ofFile r.command.subject.grammar
            (t.read r.command.subject.grammar)) =
        ⟨text, .done⟩) :
    answer Files.Tree.disk words t =
      (.ok (.success text), t) := by
  rw [answer_eq_finish hRequest rfl, Request.work, hWork]
  rfl

/- Work that stops touches nothing. -/
theorem answer_of_stopped
    {words : List String}
    {r : Request}
    {printed : String}
    {s : Stop}
    {t : Files.Tree}
    {read : Except LoadError LSystem}
    (hRequest : ofWords words = .ok r)
    (hRead :
      LSystem.ofFile r.command.subject.grammar
        (t.read r.command.subject.grammar) = read)
    (hWork : r.work read = ⟨printed, .stopped s⟩) :
    answer Files.Tree.disk words t =
      (.ok (.ofStop printed s), t) := by
  rw [answer_eq_finish hRequest hRead, hWork]
  rfl

end Command

end Lindenmayer
