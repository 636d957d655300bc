import Lindenmayer.Parser.Expression
import Lindenmayer.Proofs.Parser.Failing
import Lindenmayer.Proofs.Parser.Suffix

/-
  Watched runs of parser expressions.

  A watched run keeps a record of all that is done in it: the
  runs of parts and the calls of functions, when they begin
  and how they end.  Its outcome is that of the plain run.

  Key definitions include:
    * `Moment`
    * `Watched`
    * `Watched.call`
    * `Watched.attempt`
    * `Watcher`
    * `Expression.watch`

  Correctness is proven by:
    * `Watcher.Shows.atLeast`
    * `Watcher.shows_firstMatch`
    * `Watcher.outcome_sequence`
    * `Expression.Combined.shows_watch`
-/

------------------------------------------------------------
-- Moments
------------------------------------------------------------

namespace Lindenmayer

/-
  What happens in a run: a part of it or a function begins,
  returns, or raises a failure.  The function of a map that
  may reject its value is said to reject it.
-/
inductive Moment where
  | begins
  | returns
  | raises (f : Failure)
  | rejects (f : Failure)
deriving DecidableEq, Repr

/- How a part of a run ends. -/
def Moment.ending
    {α : Type} : Except Failure α → Moment
  | .ok _ => .returns
  | .error f => .raises f

/- What happened in a run, in order, and its outcome. -/
structure Watched (α : Type) where
  moments : List Moment
  outcome : Except Failure α

namespace Watched

variable {α β : Type}

/- A run of which nothing but the outcome is seen. -/
def silent
    (r : Except Failure α) : Watched α :=
  ⟨[], r⟩

/- Go on with the value of a run, unless it fails. -/
def bind
    (w : Watched α)
    (next : α → Watched β) : Watched β :=
  match w.outcome with
  | .error f => ⟨w.moments, .error f⟩
  | .ok a =>
      ⟨w.moments ++ (next a).moments, (next a).outcome⟩

/- Let a run be a part of another one. -/
def call
    (w : Watched α) : Watched α :=
  ⟨.begins :: (w.moments ++ [.ending w.outcome]), w.outcome⟩

/-
  Let a function with the given result be called by a map
  that may reject its value.
-/
def callRejecting
    (r : Except Failure α) : Watched α :=
  match r with
  | .ok a => ⟨[.begins, .returns], .ok a⟩
  | .error f => ⟨[.begins, .rejects f], .error f.rejection⟩

/- Recover from a parse error, which leaves no value. -/
def attempt
    (w : Watched α) : Watched (Option α) :=
  match w.outcome with
  | .ok a => ⟨w.moments, .ok (some a)⟩
  | .error (.parse _) => ⟨w.moments, .ok none⟩
  | .error f => ⟨w.moments, .error f⟩

end Watched

------------------------------------------------------------
-- Watched Combinators
------------------------------------------------------------

/-
  Each combinator makes the runs of its parsers and the calls
  of its functions parts of its own run, in their order.
-/

/- Parsers whose runs are watched. -/
abbrev Watcher (α : Type) :=
  List Char → Watched (α × List Char)

namespace Watcher

variable {α β : Type}

/- A primitive has no parts. -/
def primitive
    (p : Parser α) : Watcher α :=
  fun text => .silent (p.run text)

def seenAs
    (p : Watcher α)
    (f : α → β) : Watcher β :=
  fun text =>
    (p text).bind fun r => .silent (.ok (f r.1, r.2))

def askChar
    (asks : Char → Except Failure Bool) : Watcher Char
  | [] => .silent (.error (.parse .endOfInput))
  | c :: rest =>
      (Watched.silent (asks c)).call.bind fun holds =>
        .silent
          (if holds then .ok (c, rest)
          else .error (.parse .unexpectedCharacter))

def optional
    (p : Watcher α) : Watcher (Option α) :=
  fun text =>
    (p text).call.attempt.bind fun
      | some (a, rest) => .silent (.ok (some a, rest))
      | none => .silent (.ok (none, text))

def firstMatch
    (text : List Char) :
    List (Watcher α) → Watched (α × List Char)
  | [] => .silent (.error (.parse .noAlternative))
  | p :: ps =>
      (p text).call.attempt.bind fun
        | some r => .silent (.ok r)
        | none => firstMatch text ps

def times
    (p : Watcher α) : Nat → Watcher (List α)
  | 0 => fun text => .silent (.ok ([], text))
  | n + 1 => fun text =>
      (p text).call.bind fun r =>
        (times p n r.2).bind fun rs =>
          .silent (.ok (r.1 :: rs.1, rs.2))

def greedy
    (p : Watcher α)
    (text : List Char) : Watched (List α × List Char) :=
  (p text).call.attempt.bind fun
    | none => .silent (.ok ([], text))
    | some r =>
        if r.2.length < text.length then
          (greedy p r.2).bind fun rs =>
            .silent (.ok (r.1 :: rs.1, rs.2))
        else .silent (.error .endless)
termination_by text.length

def atLeast
    (n : Nat)
    (p : Watcher α) : Watcher (List α) :=
  fun text =>
    (times p n text).bind fun r =>
      (greedy p r.2).bind fun rs =>
        .silent (.ok (r.1 ++ rs.1, rs.2))

def map
    (p : Watcher α)
    (f : α → Except Failure β) : Watcher β :=
  fun text =>
    (p text).call.bind fun r =>
      (Watched.silent (f r.1)).call.bind fun b =>
        .silent (.ok (b, r.2))

def tryMap
    (p : Watcher α)
    (f : α → Except Failure β) : Watcher β :=
  fun text =>
    (p text).call.bind fun r =>
      (Watched.callRejecting (f r.1)).bind fun b =>
        .silent (.ok (b, r.2))

def recognize
    (p : Watcher α) : Watcher String :=
  fun text =>
    (p text).call.bind fun r =>
      .silent
        (.ok
          (String.ofList
            (text.take (text.length - r.2.length)),
            r.2))

def complete
    (p : Watcher α) : Watcher α :=
  fun text =>
    (p text).call.bind fun r =>
      (primitive Parser.finish r.2).call.bind fun s =>
        .silent (.ok (r.1, s.2))

/- The skip before each parser of a row is watched too. -/
def row
    (skip : List Char → Watched (List Char)) :
    List (Watcher α) → Watcher (List α)
  | [] => fun text => .silent (.ok ([], text))
  | p :: ps => fun text =>
      (skip text).bind fun text' =>
        (p text').call.bind fun r =>
          (row skip ps r.2).bind fun rs =>
            .silent (.ok (r.1 :: rs.1, rs.2))

/- Build a value from those of a row, after a last skip. -/
def sequence
    (skip : List Char → Watched (List Char))
    (ps : List (Watcher α))
    (build : List α → Except Failure β) : Watcher β :=
  fun text =>
    (row skip ps text).bind fun r =>
      (skip r.2).bind fun rest =>
        (Watched.silent (build r.1)).call.bind fun b =>
          .silent (.ok (b, rest))

/- Skip nothing, and make no part of it. -/
def skipNothing
    (text : List Char) : Watched (List Char) :=
  .silent (.ok text)

/- Skip spaces and tabs, as a part of the run. -/
def skipGap
    (text : List Char) : Watched (List Char) :=
  (Watched.silent (.ok (Row.skipGap text))).call

end Watcher

namespace Expression

variable {β : Type}

mutual

/- The watched runs of the parser of an expression. -/
def watch : Expression β → Watcher (Value β)
  | .char c => .primitive (parser (.char c))
  | .anyChar asks _ =>
      (Watcher.askChar asks).seenAs fun d => .text d.toString
  | .literal s => .primitive (parser (.literal s))
  | .finish => .primitive (parser .finish)
  | .skipGaps => .primitive (parser .skipGaps)
  | .skipBlanks => .primitive (parser .skipBlanks)
  | .given p => fun text => (Watched.silent (p.run text)).call
  | .optional p => p.watch.optional.seenAs ofOption
  | .atLeast n p => (p.watch.atLeast n).seenAs .list
  | .map p _ f => p.watch.map f
  | .tryMap p _ f => p.watch.tryMap f
  | .recognize p => p.watch.recognize.seenAs .text
  | .oneOf ps =>
      fun text => Watcher.firstMatch text (watchAll ps)
  | .sequence ps build =>
      .sequence Watcher.skipNothing (watchAll ps) build
  | .spaced ps build =>
      .sequence Watcher.skipGap (watchAll ps) build
  | .complete p => p.watch.complete

/- The watched runs of the parsers of some expressions. -/
def watchAll : List (Expression β) → List (Watcher (Value β))
  | [] => []
  | p :: ps => p.watch :: watchAll ps

end

end Expression

------------------------------------------------------------
-- Outcomes of Watched Runs
------------------------------------------------------------

namespace Watched

variable {α β : Type}

@[simp] theorem outcome_silent
    (r : Except Failure α) :
    (silent r).outcome = r := rfl

@[simp] theorem outcome_call
    (w : Watched α) :
    w.call.outcome = w.outcome := rfl

@[simp] theorem outcome_bind
    (w : Watched α)
    (next : α → Watched β) :
    (w.bind next).outcome =
      match w.outcome with
      | .error f => .error f
      | .ok a => (next a).outcome := by
  unfold bind
  cases w.outcome <;> rfl

@[simp] theorem outcome_attempt
    (w : Watched α) :
    w.attempt.outcome =
      match w.outcome with
      | .ok a => .ok (some a)
      | .error (.parse _) => .ok none
      | .error f => .error f := by
  unfold attempt
  cases w.outcome with
  | ok a => rfl
  | error f => cases f <;> rfl

@[simp] theorem outcome_callRejecting
    (r : Except Failure α) :
    (callRejecting r).outcome =
      match r with
      | .ok a => .ok a
      | .error f => .error f.rejection := by
  cases r <;> rfl

end Watched

namespace Watcher

variable {α β : Type}

/- Watching shows the runs of a parser. -/
def Shows
    (w : Watcher α)
    (p : Parser α) : Prop :=
  ∀ text, (w text).outcome = p.run text

theorem shows_primitive
    (p : Parser α) :
    (primitive p).Shows p :=
  fun _ => rfl

theorem shows_askChar
    (asks : Char → Except Failure Bool)
    (face : String) :
    (askChar asks).Shows (.askChar asks face) := by
  intro text
  cases text with
  | nil => rfl
  | cons c rest =>
      cases hAsks : asks c with
      | error f => simp [askChar, Parser.askChar, hAsks]
      | ok holds =>
          cases holds <;>
            simp [askChar, Parser.askChar, hAsks]

namespace Shows

variable {w : Watcher α}
variable {p : Parser α}

theorem seenAs
    (hShows : w.Shows p)
    (f : α → β) :
    (w.seenAs f).Shows (p.seenAs f) := by
  intro text
  cases hRun : p.run text <;>
    simp [Watcher.seenAs, Parser.seenAs, hShows text, hRun]

theorem optional
    (hShows : w.Shows p) :
    w.optional.Shows p.optional := by
  intro text
  cases hRun : p.run text with
  | ok r =>
      simp [Watcher.optional, Parser.optional, hShows text,
        hRun]
  | error f =>
      cases f <;>
        simp [Watcher.optional, Parser.optional, hShows text,
          hRun]

theorem times
    (hShows : w.Shows p)
    (n : Nat)
    (text : List Char) :
    (w.times n text).outcome = p.times n text := by
  induction n generalizing text with
  | zero => rfl
  | succ n ih =>
      cases hRun : p.run text with
      | error f =>
          simp [Watcher.times, Parser.times, hShows text, hRun]
      | ok r =>
          cases hLater : p.times n r.2 <;>
            simp [Watcher.times, Parser.times, hShows text,
              hRun, ih, hLater]

theorem greedy
    (hShows : w.Shows p)
    (text : List Char) :
    (w.greedy text).outcome = p.greedy text := by
  fun_induction Parser.greedy p text with
  | case1 text e hError =>
      rw [Watcher.greedy]
      simp [hShows text, hError]
  | case2 text f hFatal hError =>
      rw [Watcher.greedy]
      simp [hShows text, hError]
  | case3 text a rest hOk hShorter f hRest ih =>
      rw [Watcher.greedy]
      simp [hShows text, hOk, hShorter, ih, hRest]
  | case4 text a rest hOk hShorter as rest' hRest ih =>
      rw [Watcher.greedy]
      simp [hShows text, hOk, hShorter, ih, hRest]
  | case5 text a rest hOk hLonger =>
      rw [Watcher.greedy]
      simp [hShows text, hOk, hLonger]

theorem atLeast
    (hShows : w.Shows p)
    (n : Nat) :
    (w.atLeast n).Shows (p.atLeast n) := by
  intro text
  cases hTimes : p.times n text with
  | error f =>
      simp [Watcher.atLeast, Parser.atLeast, hShows.times,
        hTimes]
  | ok r =>
      cases hGreedy : p.greedy r.2 <;>
        simp [Watcher.atLeast, Parser.atLeast, hShows.times,
          hShows.greedy, hTimes, hGreedy]

theorem map
    (hShows : w.Shows p)
    (name : String)
    (f : α → Except Failure β) :
    (w.map f).Shows (p.map name f) := by
  intro text
  cases hRun : p.run text with
  | error e =>
      simp [Watcher.map, Parser.map, hShows text, hRun]
  | ok r =>
      cases hValue : f r.1 <;>
        simp [Watcher.map, Parser.map, hShows text, hRun,
          hValue]

theorem tryMap
    (hShows : w.Shows p)
    (name : String)
    (f : α → Except Failure β) :
    (w.tryMap f).Shows (p.tryMap name f) := by
  intro text
  cases hRun : p.run text with
  | error e =>
      simp [Watcher.tryMap, Parser.tryMap, hShows text, hRun]
  | ok r =>
      cases hValue : f r.1 <;>
        simp [Watcher.tryMap, Parser.tryMap, hShows text, hRun,
          hValue]

theorem recognize
    (hShows : w.Shows p) :
    w.recognize.Shows p.recognize := by
  intro text
  cases hRun : p.run text <;>
    simp [Watcher.recognize, Parser.recognize, hShows text,
      hRun]

theorem complete
    (hShows : w.Shows p) :
    w.complete.Shows p.complete := by
  intro text
  cases hRun : p.run text with
  | error e =>
      simp [Watcher.complete, Parser.complete, hShows text,
        hRun]
  | ok r =>
      cases hEnd : Parser.finish.run r.2 <;>
        simp [Watcher.complete, Parser.complete, primitive,
          hShows text, hRun, hEnd]

end Shows

------------------------------------------------------------
-- Lists of Parsers
------------------------------------------------------------

variable {ι : Type}
variable {w : ι → Watcher α}
variable {p : ι → Parser α}

theorem shows_firstMatch
    {xs : List ι}
    (hShows : ∀ x ∈ xs, (w x).Shows (p x))
    (text : List Char) :
    (firstMatch text (xs.map w)).outcome =
      Parser.firstMatch text (xs.map p) := by
  induction xs with
  | nil => rfl
  | cons x xs ih =>
      have hLater := ih fun y hMember =>
        hShows y (List.mem_cons_of_mem x hMember)
      have hFirst := hShows x List.mem_cons_self text
      cases hRun : (p x).run text with
      | ok r =>
          simp [firstMatch, Parser.firstMatch, hFirst, hRun]
      | error f =>
          cases f <;>
            simp [firstMatch, Parser.firstMatch, hFirst, hRun,
              hLater]

/- A watched row skips like the row that it shows. -/
theorem shows_row
    {skip : List Char → Watched (List Char)}
    {skip' : List Char → List Char}
    (hSkip : ∀ text, (skip text).outcome = .ok (skip' text))
    {xs : List ι}
    (hShows : ∀ x ∈ xs, (w x).Shows (p x))
    (text : List Char) :
    (row skip (xs.map w) text).outcome =
      (Row.ofList (xs.map p)).run skip' text := by
  induction xs generalizing text with
  | nil => rfl
  | cons x xs ih =>
      have hLater := ih fun y hMember =>
        hShows y (List.mem_cons_of_mem x hMember)
      have hFirst :=
        hShows x List.mem_cons_self (skip' text)
      cases hRun : (p x).run (skip' text) with
      | error e =>
          simp [row, Row.ofList, Row.cons, Row.seenAs, hSkip,
            hFirst, hRun]
      | ok r =>
          cases hRest :
              (Row.ofList (xs.map p)).run skip' r.2 <;>
            simp [row, Row.ofList, Row.cons, Row.seenAs, hSkip,
              hFirst, hRun, hLater, hRest]

/- A watched sequence builds its value like one that skips. -/
theorem outcome_sequence
    {skip : List Char → Watched (List Char)}
    {skip' : List Char → List Char}
    (hSkip : ∀ text, (skip text).outcome = .ok (skip' text))
    {xs : List ι}
    (hShows : ∀ x ∈ xs, (w x).Shows (p x))
    (build : List α → Except Failure β)
    (text : List Char) :
    (sequence skip (xs.map w) build text).outcome =
      match (Row.ofList (xs.map p)).run skip' text with
      | .error e => .error e
      | .ok (as, rest) =>
          match build as with
          | .error e => .error e
          | .ok b => .ok (b, skip' rest) := by
  cases hRow : (Row.ofList (xs.map p)).run skip' text <;>
    simp [sequence, shows_row hSkip hShows, hSkip, hRow]

theorem shows_sequence
    {xs : List ι}
    (hShows : ∀ x ∈ xs, (w x).Shows (p x))
    (build : List α → Except Failure β) :
    (sequence skipNothing (xs.map w) build).Shows
      ((Row.ofList (xs.map p)).sequence build) := by
  have hSkip :
      ∀ text, (skipNothing text).outcome = .ok (id text) :=
    fun _ => rfl
  intro text
  simp only [outcome_sequence hSkip hShows, Row.sequence]
  cases (Row.ofList (xs.map p)).run id text <;> rfl

theorem shows_spaced
    {xs : List ι}
    (hShows : ∀ x ∈ xs, (w x).Shows (p x))
    (build : List α → Except Failure β) :
    (sequence skipGap (xs.map w) build).Shows
      ((Row.ofList (xs.map p)).spaced build) := by
  have hSkip :
      ∀ text,
        (skipGap text).outcome = .ok (Row.skipGap text) :=
    fun _ => rfl
  intro text
  simp only [outcome_sequence hSkip hShows, Row.spaced]
  cases (Row.ofList (xs.map p)).run Row.skipGap text <;> rfl

end Watcher

------------------------------------------------------------
-- Expressions
------------------------------------------------------------

namespace Expression

variable {β : Type}

theorem watchAll_eq_map
    (ps : List (Expression β)) :
    watchAll ps = ps.map watch := by
  induction ps with
  | nil => rfl
  | cons p ps ih => rw [watchAll, ih, List.map_cons]

/- The watched runs of an expression are its runs. -/
theorem Combined.shows_watch
    {e : Expression β}
    (hCombined : e.Combined) :
    e.watch.Shows e.parser := by
  induction hCombined with
  | char c => exact Watcher.shows_primitive _
  | anyChar asks face =>
      exact (Watcher.shows_askChar asks face).seenAs _
  | literal s => exact Watcher.shows_primitive _
  | finish => exact Watcher.shows_primitive _
  | skipGaps => exact Watcher.shows_primitive _
  | skipBlanks => exact Watcher.shows_primitive _
  | optional hInner ih => exact ih.optional.seenAs _
  | atLeast n hInner ih => exact (ih.atLeast n).seenAs _
  | map name f hInner ih => exact ih.map name f
  | tryMap name f hInner ih => exact ih.tryMap name f
  | recognize hInner ih => exact ih.recognize.seenAs _
  | oneOf hInner ih =>
      rw [watch, watchAll_eq_map, parser, parsers_eq_map]
      exact Watcher.shows_firstMatch ih
  | sequence build hInner ih =>
      rw [watch, watchAll_eq_map, parser, parsers_eq_map]
      exact Watcher.shows_sequence ih build
  | spaced build hInner ih =>
      rw [watch, watchAll_eq_map, parser, parsers_eq_map]
      exact Watcher.shows_spaced ih build
  | complete hInner ih => exact ih.complete

end Expression

end Lindenmayer
