import Lindenmayer.Proofs.Command.Outcome
import Lindenmayer.Proofs.Drawing.Numerals
import Lindenmayer.Proofs.Grammar.PlainFile

/-
  The numbers that a drawing command writes.

  Nothing checks that the numbers of a drawing stay finite: a
  length, an angle or a coordinate that overflows is drawn and
  written by a word.  Only the extents of the frame are looked
  at, and they have to be above zero, so they are numbers.

  Key definitions include:
    * `Command.Draws`
    * `Command.enormousStep`

  Correctness is proven by:
    * `Command.draws_of_success`
    * `Command.draws_of_not_finite`
    * `Command.written_numbers`
    * `Command.overflow_written`
-/

------------------------------------------------------------
-- Written Drawings
------------------------------------------------------------

namespace Lindenmayer

namespace Command

/-
  What a successful drawing command has done: the grammar was
  read, its unfolding was drawn in a frame, and the document
  of this drawing was written.
-/
structure Draws
    (s : Subject)
    (output : String)
    (margin : Float)
    (t u : Files.Tree)
    (l : LSystem)
    (ls : List Polyline)
    (b : Bounds)
    (text : String) : Prop where
  read :
    LSystem.ofFile s.grammar (t.read s.grammar) = .ok l
  drawn :
    ∃ w, unfold s l = .ok w ∧ draw l.config w = .ok ls
  framed : Svg.frame margin ls = .ok b
  document :
    text =
      Markup.document
        (Svg.lines
          { margin := margin, title := some s.grammar }
          l.config b ls)
  written : t.write output text = (.ok (), u)

/- The text of a drawing is the document of its polylines. -/
theorem exists_of_renderText
    {s : Subject}
    {margin : Float}
    {l : LSystem}
    {text : String}
    (hText : renderText s margin l = .ok text) :
    ∃ w ls b,
      unfold s l = .ok w ∧
      draw l.config w = .ok ls ∧
      Svg.frame margin ls = .ok b ∧
      text =
        Markup.document
          (Svg.lines
            { margin := margin, title := some s.grammar }
            l.config b ls) := by
  unfold renderText at hText
  cases hUnfold : unfold s l with
  | error e => simp [hUnfold] at hText
  | ok w =>
      cases hDraw : draw l.config w with
      | error e => simp [hUnfold, hDraw] at hText
      | ok ls =>
          simp only [hUnfold, hDraw, Svg.document] at hText
          cases hFrame : Svg.frame margin ls with
          | error e => simp [hFrame] at hText
          | ok b =>
              simp only [hFrame, Except.ok.injEq] at hText
              exact ⟨w, ls, b, rfl, hDraw, hFrame, hText.symm⟩

/- The work of a drawing command is to write this text. -/
theorem work_of_renderText
    {s : Subject}
    (output : String)
    {margin : Float}
    {l : LSystem}
    {text : String}
    (hText : renderText s margin l = .ok text) :
    (Command.render s output margin).work (.ok l) =
      ⟨"", .writing output text⟩ := by
  change renderWork s output margin l = _
  rw [renderWork, hText]

/- What is stopped does not succeed. -/
theorem not_success_of_stop
    (printed : String)
    (s : Stop) :
    (Report.ofStop printed s).result ≠ .ok 0 := by
  cases s <;> exact nofun

theorem not_success_of_stopped
    {t u : Files.Tree}
    {report : Report}
    {s : Stop}
    (hFinish :
      finish Files.Tree.disk (.stopped s) t = (report, u)) :
    report.result ≠ .ok 0 := by
  rw [Work.stopped, finish_stopped] at hFinish
  cases hFinish
  exact not_success_of_stop _ _

/- A drawing command succeeds by writing its drawing. -/
theorem draws_of_success
    {words : List String}
    {r : Request}
    {report : Report}
    {s : Subject}
    {output : String}
    {margin : Float}
    {t u : Files.Tree}
    (hRequest : ofWords words = .ok r)
    (hCommand : r.command = .render s output margin)
    (hAnswer :
      answer Files.Tree.disk words t = (.ok report, u))
    (hSuccess : report.result = .ok 0) :
    ∃ l ls b text, Draws s output margin t u l ls b text := by
  have hPath :
      LSystem.ofFile r.command.subject.grammar
          (t.read r.command.subject.grammar) =
        LSystem.ofFile s.grammar (t.read s.grammar) := by
    rw [hCommand]
    rfl
  rcases answer_cases hRequest t hPath with
    ⟨report', u', hFinish, hAnswer'⟩ | ⟨blank, _, hAnswer'⟩
  · rw [hAnswer'] at hAnswer
    cases hAnswer
    have hComes :=
      comesTo_work r.command
        (LSystem.ofFile s.grammar (t.read s.grammar))
    rw [hCommand] at hComes hFinish
    generalize Command.work _ _ = w at hComes hFinish
    generalize hRead :
      LSystem.ofFile s.grammar (t.read s.grammar) = read
      at hComes
    cases hComes with
    | drawn hText =>
        rename_i l text
        rcases exists_of_renderText hText with
          ⟨w, ls, b, hUnfold, hDraw, hFrame, hDocument⟩
        rw [finish_writing] at hFinish
        rcases hWrite : t.write output text with ⟨_ | _, v⟩
        · rw [hWrite] at hFinish
          cases hFinish
          exact absurd hSuccess (not_success_of_stop _ _)
        · rw [hWrite] at hFinish
          cases hFinish
          exact ⟨l, ls, b, text,
            ⟨hRead, ⟨w, hUnfold, hDraw⟩, hFrame, hDocument,
              hWrite⟩⟩
    | unread =>
        exact absurd hSuccess (not_success_of_stopped hFinish)
    | refused =>
        exact absurd hSuccess (not_success_of_stopped hFinish)
    | stuck =>
        exact absurd hSuccess (not_success_of_stopped hFinish)
  · rw [hAnswer'] at hAnswer
    cases hAnswer
    cases hSuccess

------------------------------------------------------------
-- Overflow
------------------------------------------------------------

/- A step that is not finite leads to no finite place. -/
theorem not_finite_of_advance
    {s s' : TurtleState}
    (hAdvance : s.advance = .ok s')
    (hStep : s.step.isFinite = false) :
    s'.x.isFinite = false ∧ s'.y.isFinite = false := by
  have hSum (x c : Float) :
      (x + s.step * c).isFinite = false := by
    rw [Bool.eq_false_iff]
    intro hFinite
    have hProduct := (Number.isFinite_of_add hFinite).2
    have hFactor := (Number.isFinite_of_mul hProduct).1
    rw [hStep] at hFactor
    cases hFactor
  unfold TurtleState.advance at hAdvance
  simp only at hAdvance
  split at hAdvance
  · cases hAdvance
  · cases hAdvance
    exact ⟨hSum _ _, hSum _ _⟩

/- One such step draws a line that is part of the drawing. -/
theorem draw_of_not_finite
    {c : Config}
    {t : Turtle}
    {w : Unfolding Char}
    (hStart : Turtle.start c = .ok t)
    (hStep : c.step.isFinite = false)
    (hYields : Source.Yields w [.symbol 'F']) :
    ∃ p : Point,
      p.x.isFinite = false ∧ p.y.isFinite = false ∧
      draw c w =
        .ok [.ofPoints c.lineWidth [⟨0.0, 0.0⟩, p]] := by
  have hFresh := (Turtle.start_eq_ok hStart).1
  have hHeading : (radians 90.0).isInf = false := by decide
  have hAdvance :
      ∃ s, (TurtleState.initial c).advance = .ok s := by
    unfold TurtleState.advance TurtleState.initial
    simp only [hHeading, Bool.false_eq_true, if_false]
    exact ⟨_, rfl⟩
  rcases hAdvance with ⟨s, hAdvance⟩
  have hPlace := not_finite_of_advance hAdvance hStep
  have hElsewhere :
      (⟨0.0, 0.0⟩ : Point).same s.point = false := by
    have hX : (0.0 == s.x) = false := by
      rcases Number.eq_of_not_finite hPlace.1 with
        hX | hX | hX <;>
        rw [hX] <;> decide
    simp only [Point.same, TurtleState.point, hX,
      Bool.false_and]
  let u : Turtle :=
    { t with
      state := s
      buffer := ⟨[⟨c.lineWidth, [s.point, ⟨0.0, 0.0⟩]⟩]⟩ }
  have hForward : t.call (.render .forward) = .ok u := by
    simp only [u, hFresh, Turtle.call, Turtle.render,
      Turtle.forward, hAdvance, PolylineBuffer.startNew,
      PolylineBuffer.addPoint?, Polyline.add, hElsewhere,
      Bool.false_eq_true, if_false]
    rfl
  have hPlay :
      Renderer.play meaning (.turtle t) w =
        ⟨.turtle u.finish, none⟩ := by
    rw [Renderer.play_eq_answer meaning _ w _ hYields]
    change (Renderer.turtle t).answer
      [.render .forward, .finish] = _
    rw [Renderer.answer_turtle_of_ok hForward]
    rfl
  have hDrawn :
      draw c w =
        .ok [.ofPoints c.lineWidth [⟨0.0, 0.0⟩, s.point]] := by
    simp only [draw, hStart, hPlay]
    rfl
  exact ⟨s.point, hPlace.1, hPlace.2, hDrawn⟩

/- The line is written, as its frame encloses an area. -/
theorem exists_frame_of_not_finite
    (width : Float)
    {p : Point}
    (hX : p.x.isFinite = false)
    (hY : p.y.isFinite = false) :
    ∃ b, Svg.frame 10.0 [.ofPoints width [⟨0.0, 0.0⟩, p]] =
      .ok b := by
  have hExtent {x : Float}
      (hNotFinite : x.isFinite = false) :
      0.0 <
        (greatestFrom 0.0 [x] + 10.0) -
          (leastFrom 0.0 [x] - 10.0) := by
    rcases Number.eq_of_not_finite hNotFinite with
      rfl | rfl | rfl <;>
      decide +kernel
  exact ⟨_, if_pos ⟨hExtent hX, hExtent hY⟩⟩

/-
  No step is refused for its length: where the first step
  leads to no finite place, it is drawn and written.
-/
theorem draws_of_not_finite
    {words : List String}
    {grammar output : String}
    {t : Files.Tree}
    {l : LSystem}
    {turtle : Turtle}
    (hRequest :
      ofWords words =
        .ok ⟨.render ⟨grammar, "F", .iterations 0⟩ output 10.0,
          []⟩)
    (hRead : LSystem.ofFile grammar (t.read grammar) = .ok l)
    (hStart : Turtle.start l.config = .ok turtle)
    (hStep : l.config.step.isFinite = false)
    (hWrite :
      ∀ text, ∃ u, t.write output text = (.ok (), u)) :
    ∃ p b text u,
      p.x.isFinite = false ∧
      Draws ⟨grammar, "F", .iterations 0⟩ output 10.0 t u l
        [.ofPoints l.config.lineWidth [⟨0.0, 0.0⟩, p]] b
        text ∧
      answer Files.Tree.disk words t =
        (.ok (.success ""), u) := by
  have hUnfold :
      ∃ w, unfold ⟨grammar, "F", .iterations 0⟩ l = .ok w ∧
        Source.Yields w [.symbol 'F'] := by
    have hSeed : "F".toList = ['F'] := by decide
    have hYields :=
      Unfolding.flat_yields
        (Expansion.yields_rounds l.rules "F".toList 0)
    rw [RuleStore.rounds, hSeed] at hYields
    refine ⟨_, ?_, hYields⟩
    rw [unfold, hSeed]
    rfl
  rcases hUnfold with ⟨w, hUnfold, hYields⟩
  rcases draw_of_not_finite hStart hStep hYields with
    ⟨p, hX, hY, hDraw⟩
  rcases exists_frame_of_not_finite l.config.lineWidth hX hY
    with ⟨b, hFrame⟩
  have hText :
      renderText ⟨grammar, "F", .iterations 0⟩ 10.0 l =
        .ok
          (Markup.document
            (Svg.lines
              { margin := 10.0, title := some grammar }
              l.config b
              [.ofPoints l.config.lineWidth
                [⟨0.0, 0.0⟩, p]])) := by
    rw [renderText, hUnfold]
    simp only [hDraw, Svg.document, hFrame]
  rcases hWrite _ with ⟨u, hWritten⟩
  refine ⟨p, b, _, u, hX,
    ⟨hRead, ⟨w, hUnfold, hDraw⟩, hFrame, rfl, hWritten⟩, ?_⟩
  rcases answer_cases hRequest t hRead with
    ⟨report, v, hFinish, hAnswer⟩ | ⟨blank, hBlank, _⟩
  · rw [work_of_renderText output hText, finish_writing,
      hWritten] at hFinish
    cases hFinish
    exact hAnswer
  · cases hBlank

------------------------------------------------------------
-- Enormous Steps
------------------------------------------------------------

/- A one with so many zeros. -/
def power
    (zeros : Nat) : List Char :=
  '1' :: List.replicate zeros '0'

theorem mem_power
    {zeros : Nat}
    {c : Char}
    (hMember : c ∈ power zeros) :
    c = '1' ∨ c = '0' :=
  (List.mem_cons.mp hMember).imp_right
    List.eq_of_mem_replicate

theorem ofDigits_power
    (zeros : Nat) :
    Numeral.ofDigits (power zeros) = 10 ^ zeros := by
  rw [Numeral.ofDigits, power, Nat.ofDigitChars_cons,
    Nat.ofDigitChars_replicate_zero]
  exact Nat.mul_one _

/- With 309 zeros before the point it is infinite. -/
theorem float?_power
    {zeros : Nat}
    (hLarge : 309 ≤ zeros) :
    Numeral.float?
        (String.ofList (power zeros ++ '.' :: ['0'])) =
      some Numeral.infinity := by
  have hSize :
      zeros + 2 ≤
        (Nat.toDigits 10 (10 ^ (zeros + 1))).length := by
    have hNot :
        ¬ (Nat.toDigits 10 (10 ^ (zeros + 1))).length ≤
          zeros + 1 := by
      rw [Nat.length_toDigits_le_iff (by decide)
        (Nat.succ_pos zeros)]
      exact Nat.lt_irrefl _
    omega
  have hDigits :
      power zeros ++ ['0'] = power (zeros + 1) := by
    rw [power, power, List.replicate_succ', List.cons_append]
  have hSome : (10 : Nat) ^ (zeros + 1) ≠ 0 :=
    Nat.ne_of_gt (Nat.pow_pos (by decide))
  have hWhole : ∀ d ∈ power zeros, d.isDigit = true := by
    intro d hMember
    rcases mem_power hMember with rfl | rfl <;> rfl
  have hFraction : ∀ d ∈ ['0'], d.isDigit = true := by simp
  rw [Numeral.float?_plain (power zeros) ['0'] hWhole
    hFraction (List.cons_ne_nil _ _), hDigits, ofDigits_power,
    Numeral.nearest]
  simp only [hSome, if_false]
  rw [if_pos]
  simp only [List.length_singleton, Int.ofNat_eq_natCast]
  omega

/- This numeral may stand in a file. -/
theorem power_mem_decimalsOf
    {zeros : Nat}
    (hLarge : 309 ≤ zeros) :
    power zeros ++ '.' :: ['0'] ∈
      FileFormat.decimalsOf Numeral.infinity := by
  have hWhole : power zeros ∈ FileFormat.digits := by
    refine ⟨List.cons_ne_nil _ _, ?_⟩
    intro c hMember
    rcases mem_power hMember with rfl | rfl <;> decide
  have hFraction : ['0'] ∈ FileFormat.digits :=
    ⟨List.cons_ne_nil _ _, by simp⟩
  refine ⟨?_, float?_power hLarge⟩
  exact Text.append_mem_prod_cons hWhole
    (Text.append_mem_prod_cons (a := ['.']) rfl
      ((Text.mem_prod_singleton_iff _ _).mpr hFraction))

/- A grammar whose step is such a number. -/
def enormousStep
    (zeros : Nat) : String :=
  String.ofList
    (FileFormat.plainHeader "render" ++
      (FileFormat.plainDecimal .step
          (power zeros ++ '.' :: ['0']) ++
        (FileFormat.plainHeader "rules" ++
          [⟨'F', ['F']⟩].flatMap FileFormat.plainRule)))

theorem ofFile_enormousStep
    (path : String)
    {zeros : Nat}
    (hLarge : 309 ≤ zeros) :
    LSystem.ofFile path (.ok (enormousStep zeros).toUTF8) =
      .ok
        ⟨.ofPairs [⟨'F', ['F']⟩],
          { step := Numeral.infinity }⟩ := by
  have hLines :
      FileFormat.plainDecimal .step
          (power zeros ++ '.' :: ['0']) ∈
        ([Setting.decimal .step Numeral.infinity].map
          FileFormat.settingLineOf).prod :=
    (Text.mem_prod_singleton_iff _ _).mpr
      (FileFormat.plainDecimal_mem
        (power_mem_decimalsOf hLarge))
  exact FileFormat.ofFile_of_mem_fileOf path
    (FileFormat.sections_mem_fileOf hLines (by decide)
      (List.cons_ne_nil _ _))

/-
  Such a step is drawn and written.  How many zeros it has
  does not matter from 309 on.
-/
theorem draws_enormousStep
    (zeros : Nat)
    (hLarge : 309 ≤ zeros) :
    let t : Files.Tree :=
      ⟨[], [(["g"], .file (enormousStep zeros).toUTF8)]⟩
    let words := ["render", "g", "o.svg", "--iterations", "0"]
    let s : Subject := ⟨"g", "F", .iterations 0⟩
    ofWords words = .ok ⟨.render s "o.svg" 10.0, []⟩ ∧
      ∃ l p b text u,
        p.x.isFinite = false ∧
        Draws s "o.svg" 10.0 t u l
          [.ofPoints l.config.lineWidth [⟨0.0, 0.0⟩, p]] b
          text ∧
        answer Files.Tree.disk words t =
          (.ok (.success ""), u) := by
  intro t words s
  have hRequest :
      ofWords words = .ok ⟨.render s "o.svg" 10.0, []⟩ := by
    decide +kernel
  have hWrite (text : String) :
      ∃ u, t.write "o.svg" text = (.ok (), u) :=
    ⟨_, rfl⟩
  have hRead :
      LSystem.ofFile "g" (t.read "g") = _ :=
    ofFile_enormousStep "g" hLarge
  exact ⟨hRequest, _,
    draws_of_not_finite hRequest hRead rfl (by decide) hWrite⟩

------------------------------------------------------------
-- Written Numbers
------------------------------------------------------------

/-
  The numbers of the document that a drawing command writes
  are finite decimal numerals, unless a number of the drawing
  has overflowed: then it is written by a word.
-/
theorem written_numbers
    {words : List String}
    {r : Request}
    {report : Report}
    {s : Subject}
    {output : String}
    {margin : Float}
    {t u : Files.Tree}
    (hRequest : ofWords words = .ok r)
    (hCommand : r.command = .render s output margin)
    (hAnswer :
      answer Files.Tree.disk words t = (.ok report, u))
    (hSuccess : report.result = .ok 0) :
    ∃ l ls b text pieces,
      Draws s output margin t u l ls b text ∧
      Markup.read text = some pieces ∧
      (∀ w ∈ pieces.flatMap Markup.Piece.numerals,
        Decimal.isNumeral w = true ∨
          w ∈ Svg.notFiniteWords) ∧
      ((∀ w ∈ pieces.flatMap Markup.Piece.numerals,
        Decimal.isNumeral w = true) ↔
        Svg.InRange true b ls) ∧
      Svg.number 3 b.width ≠ "nan" ∧
      Svg.number 3 b.height ≠ "nan" := by
  rcases draws_of_success hRequest hCommand hAnswer hSuccess
    with ⟨l, ls, b, text, hDraws⟩
  have hRead := Svg.read_lines
    { margin := margin, title := some s.grammar } l.config b ls
  rw [← hDraws.document] at hRead
  refine ⟨l, ls, b, text, _, hDraws, hRead, ?_, ?_, ?_⟩
  · exact fun w hMember => Svg.isNumeral_or_word hMember
  · exact Svg.forall_isNumeral_iff _ _ _ _ _
  · exact Svg.number_ne_nan_of_frame hDraws.framed 3

/- The document of an enormous step has words and numerals. -/
theorem written_numbers_enormous :
    let t : Files.Tree :=
      ⟨[], [(["g"], .file (enormousStep 309).toUTF8)]⟩
    let words := ["render", "g", "o.svg", "--iterations", "0"]
    ∃ u l ls b text pieces,
      answer Files.Tree.disk words t =
        (.ok (.success ""), u) ∧
      Draws ⟨"g", "F", .iterations 0⟩ "o.svg" 10.0 t u l ls b
        text ∧
      Markup.read text = some pieces ∧
      (∀ w ∈ pieces.flatMap Markup.Piece.numerals,
        Decimal.isNumeral w = true ∨
          w ∈ Svg.notFiniteWords) ∧
      ((∀ w ∈ pieces.flatMap Markup.Piece.numerals,
        Decimal.isNumeral w = true) ↔
        Svg.InRange true b ls) ∧
      Svg.number 3 b.width ≠ "nan" ∧
      Svg.number 3 b.height ≠ "nan" := by
  intro t words
  rcases draws_enormousStep 309 (by decide) with
    ⟨hRequest, _, _, _, _, u, _, _, hAnswer⟩
  rcases written_numbers hRequest rfl hAnswer rfl with
    ⟨l, ls, b, text, pieces, hNumbers⟩
  exact ⟨u, l, ls, b, text, pieces, hAnswer, hNumbers⟩

/-
  A step of 310 digits is written by a word, although nothing
  is complained of.
-/
theorem overflow_written :
    let t : Files.Tree :=
      ⟨[], [(["g"], .file (enormousStep 309).toUTF8)]⟩
    let words := ["render", "g", "o.svg", "--iterations", "0"]
    ∃ u text pieces,
      answer Files.Tree.disk words t =
        (.ok (.success ""), u) ∧
      t.write "o.svg" text = (.ok (), u) ∧
      Markup.read text = some pieces ∧
      ∃ w ∈ pieces.flatMap Markup.Piece.numerals,
        w ∈ Svg.notFiniteWords ∧
        Decimal.isNumeral w = false := by
  intro t words
  rcases draws_enormousStep 309 (by decide) with
    ⟨_, l, p, b, text, u, hPlace, hDraws, hAnswer⟩
  have hRead := Svg.read_lines
    { margin := 10.0, title := some "g" } l.config b
    [.ofPoints l.config.lineWidth [⟨0.0, 0.0⟩, p]]
  rw [← hDraws.document] at hRead
  refine ⟨u, text, _, hAnswer, hDraws.written, hRead, ?_⟩
  by_contra hNone
  have hNumerals :
      ∀ w ∈ (Svg.elements 3
            { margin := 10.0, title := some "g" } l.config b
            [.ofPoints l.config.lineWidth
              [⟨0.0, 0.0⟩, p]]).flatMap
          Markup.Piece.numerals,
        Decimal.isNumeral w = true := by
    intro w hMember
    rcases Svg.isNumeral_or_word hMember with
      hNumeral | hWord
    · exact hNumeral
    · by_contra hOther
      exact hNone ⟨w, hMember, hWord,
        Bool.eq_false_iff.mpr hOther⟩
  have hRange :=
    (Svg.forall_isNumeral_iff _ _ _ _ _).mp hNumerals
  have hFinite :=
    (hRange.points _ List.mem_cons_self p
      (by simp)).1
  rw [hPlace] at hFinite
  cases hFinite

end Command

end Lindenmayer
