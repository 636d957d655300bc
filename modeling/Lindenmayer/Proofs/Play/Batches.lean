import Mathlib.Data.Nat.Find
import Lindenmayer.Proofs.Play.Answers

/-
  A batch is played as each of its members is played alone.

  As long as no member refuses an item, each has become what
  it becomes of these items alone.  The first member to refuse
  an item ends the play: those before it have received the
  item, those behind it have not, and none is finished.

  Key definitions include:
    * `Renderer.receive`
    * `Renderer.RefusesAt`

  Correctness is proven by:
    * `Renderer.callAll_of_granted`
    * `Renderer.callAll_of_refused`
    * `Renderer.answer_batch`
    * `Renderer.receive_take_eq_none_iff`
    * `Renderer.play_of_received`
    * `Renderer.play_of_refused`
    * `Renderer.batch_plays_each`
-/

------------------------------------------------------------
-- Calls to All Members
------------------------------------------------------------

namespace Lindenmayer

/- What is not refused is just what it has become. -/
theorem Called.eq_of_granted
    {ρ : Type}
    {c : Called ρ}
    (hGranted : c.refusal = none) :
    c = ⟨c.renderer, none⟩ := by
  rw [← hGranted]

namespace Renderer

/- A call that no member refuses is answered by all. -/
theorem callAll_of_granted
    {c : Call}
    {members : List Renderer}
    (hGranted : ∀ r ∈ members, (r.call c).refusal = none) :
    callAll c members =
      ⟨members.map fun r => (r.call c).renderer, none⟩ := by
  induction members with
  | nil => rfl
  | cons r members ih =>
      rw [List.forall_mem_cons] at hGranted
      rw [callAll, Called.eq_of_granted hGranted.1,
        ih hGranted.2]
      rfl

/-
  The first member to refuse a call keeps it from those behind.
-/
theorem callAll_of_refused
    {c : Call}
    {before later : List Renderer}
    {r s : Renderer}
    {e : RenderError}
    (hGranted : ∀ q ∈ before, (q.call c).refusal = none)
    (hRefused : r.call c = ⟨s, some e⟩) :
    callAll c (before ++ r :: later) =
      ⟨(before.map fun q => (q.call c).renderer) ++
          s :: later,
        some e⟩ := by
  induction before with
  | nil =>
      rw [List.nil_append, callAll, hRefused]
      rfl
  | cons q before ih =>
      rw [List.forall_mem_cons] at hGranted
      rw [List.cons_append, callAll,
        Called.eq_of_granted hGranted.1, ih hGranted.2]
      rfl

mutual

/- To be finished is not refused. -/
theorem refusal_finish :
    ∀ r : Renderer, (r.call .finish).refusal = none
  | .collector _ => by rw [call]
  | .recorder _ => by rw [call]
  | .turtle _ => by rw [call]; rfl
  | .batch members => by
      rw [call]
      exact refusal_finishAll members

theorem refusal_finishAll :
    ∀ members : List Renderer,
      (callAll .finish members).refusal = none
  | [] => by rw [callAll]
  | r :: members => by
      rw [callAll, Called.eq_of_granted (refusal_finish r)]
      exact refusal_finishAll members

end

------------------------------------------------------------
-- Answers
------------------------------------------------------------

theorem answer_cons_of_granted
    {r : Renderer}
    {c : Call}
    (hGranted : (r.call c).refusal = none)
    (calls : List Call) :
    r.answer (c :: calls) =
      (r.call c).renderer.answer calls := by
  rw [answer, Called.eq_of_granted hGranted]

/- The first of some calls was granted if they all were. -/
theorem granted_of_answer_cons
    {r : Renderer}
    {c : Call}
    {calls : List Call}
    (hGranted : (r.answer (c :: calls)).refusal = none) :
    (r.call c).refusal = none := by
  rw [answer] at hGranted
  rcases hCall : r.call c with ⟨s, _ | e⟩
  · rfl
  · rw [hCall] at hGranted
    cases hGranted

theorem answer_append_of_granted
    {r : Renderer}
    {calls : List Call}
    (hGranted : (r.answer calls).refusal = none)
    (others : List Call) :
    r.answer (calls ++ others) =
      (r.answer calls).renderer.answer others := by
  rw [answer_append, Called.eq_of_granted hGranted]

/- Calls behind one that was refused are not answered. -/
theorem answer_append_of_refused
    {r : Renderer}
    {calls : List Call}
    (hRefused : (r.answer calls).refusal ≠ none)
    (others : List Call) :
    r.answer (calls ++ others) = r.answer calls := by
  rw [answer_append]
  rcases hAnswer : r.answer calls with ⟨s, _ | e⟩
  · rw [hAnswer] at hRefused
    exact absurd rfl hRefused
  · rfl

/-
  Calls that no member refuses are answered by a batch as by
  each of them.  The induction is on the calls, and the
  members change with each.
-/
theorem answer_batch
    {members : List Renderer}
    {calls : List Call}
    (hGranted :
      ∀ r ∈ members, (r.answer calls).refusal = none) :
    (batch members).answer calls =
      ⟨batch (members.map fun r => (r.answer calls).renderer),
        none⟩ := by
  induction calls generalizing members with
  | nil => simp [answer]
  | cons c calls ih =>
      have hFirst :
          ∀ r ∈ members, (r.call c).refusal = none :=
        fun r hMember =>
          granted_of_answer_cons (hGranted r hMember)
      have hCall :
          (batch members).call c =
            ⟨batch (members.map fun r => (r.call c).renderer),
              none⟩ := by
        rw [call, callAll_of_granted hFirst]
      have hLater :
          ∀ r ∈ members.map fun r => (r.call c).renderer,
            (r.answer calls).refusal = none := by
        rw [List.forall_mem_map]
        intro r hMember
        rw [← answer_cons_of_granted (hFirst r hMember)]
        exact hGranted r hMember
      rw [answer, hCall]
      simp only [ih hLater, List.map_map]
      congr 2
      apply List.map_congr_left
      intro r hMember
      rw [answer_cons_of_granted (hFirst r hMember)]
      rfl

------------------------------------------------------------
-- Received Items
------------------------------------------------------------

variable {α : Type}

/-
  A renderer receives items: it answers their calls, and is
  not finished.
-/
def receive
    (meaning : α → Instruction)
    (r : Renderer)
    (items : List (Item α)) : Called Renderer :=
  r.answer (items.map (Item.toCall meaning))

/-
  A renderer by itself receives the items before one of them,
  and refuses that one.
-/
def RefusesAt
    (meaning : α → Instruction)
    (items : List (Item α))
    (r : Renderer)
    (k : Nat) : Prop :=
  (r.receive meaning (items.take k)).refusal = none ∧
    (r.receive meaning (items.take (k + 1))).refusal ≠ none

variable {meaning : α → Instruction}
variable {items : List (Item α)}
variable {r : Renderer}

/- Only an item that there is can be refused. -/
theorem RefusesAt.lt_length
    {k : Nat}
    (hRefuses : RefusesAt meaning items r k) :
    k < items.length := by
  apply Nat.lt_of_not_le
  intro hOver
  rcases hRefuses with ⟨hGranted, hRefused⟩
  rw [List.take_of_length_le hOver] at hGranted
  rw [List.take_of_length_le (Nat.le_succ_of_le hOver)]
    at hRefused
  exact hRefused hGranted

/- One item more is one call more. -/
theorem receive_take_succ
    {k : Nat}
    (hInside : k < items.length)
    (hGranted :
      (r.receive meaning (items.take k)).refusal = none) :
    r.receive meaning (items.take (k + 1)) =
      (r.receive meaning (items.take k)).renderer.call
        (items[k].toCall meaning) := by
  have hItems : items.take (k + 1) = items.take k ++ [items[k]] :=
    (List.take_append_getElem hInside).symm
  rw [receive, hItems, List.map_append,
    answer_append_of_granted hGranted]
  exact answer_singleton _ _

/- Later items are not received after one is refused. -/
theorem receive_append_of_refused
    (hRefused : (r.receive meaning items).refusal ≠ none)
    (others : List (Item α)) :
    r.receive meaning (items ++ others) =
      r.receive meaning items := by
  rw [receive, List.map_append]
  exact answer_append_of_refused hRefused _

/- The first items are received when none of them is refused. -/
theorem receive_take_eq_none_iff
    (k : Nat) :
    (r.receive meaning (items.take k)).refusal = none ↔
      ∀ j, j < k → ¬ RefusesAt meaning items r j := by
  induction k with
  | zero =>
      rw [List.take_zero]
      exact ⟨fun _ j hNone => absurd hNone (Nat.not_lt_zero j),
        fun _ => rfl⟩
  | succ k ih =>
      constructor
      · intro hGranted j hEarlier hRefuses
        rcases hRefuses with ⟨_, hRefused⟩
        rcases Nat.exists_eq_add_of_le hEarlier with ⟨d, hLast⟩
        rw [hLast, List.take_add,
          receive_append_of_refused hRefused] at hGranted
        exact hRefused hGranted
      · intro hNone
        have hFirst := ih.mpr fun j hEarlier =>
          hNone j (Nat.lt_succ_of_lt hEarlier)
        refine Classical.byContradiction fun hRefused => ?_
        exact hNone k (Nat.lt_succ_self k) ⟨hFirst, hRefused⟩

/- Who does not receive all items refuses one of them. -/
theorem exists_refusesAt
    (hRefused : (r.receive meaning items).refusal ≠ none) :
    ∃ k, RefusesAt meaning items r k := by
  refine Classical.byContradiction fun hNone => hRefused ?_
  rw [← List.take_length (l := items),
    receive_take_eq_none_iff]
  exact fun j _ hRefuses => hNone ⟨j, hRefuses⟩

/- Among those who refuse an item there is a first one. -/
theorem exists_first_member
    {members : List Renderer}
    {k : Nat}
    (hSome : ∃ r ∈ members, RefusesAt meaning items r k) :
    ∃ before r later, members = before ++ r :: later ∧
      RefusesAt meaning items r k ∧
      ∀ q ∈ before, ¬ RefusesAt meaning items q k := by
  classical
  have hFound :
      (members.find? fun q =>
        decide (RefusesAt meaning items q k)).isSome := by
    simpa [List.find?_isSome] using hSome
  rcases Option.isSome_iff_exists.mp hFound with ⟨r, hFirst⟩
  rcases List.find?_eq_some_iff_append.mp hFirst with
    ⟨hRefuses, before, later, hSplit, hBefore⟩
  refine ⟨before, r, later, hSplit, by simpa using hRefuses,
    fun q hMember => ?_⟩
  simpa using hBefore q hMember

/-
  When one of some renderers does not receive all items, there
  is a first item that one of them refuses, and a first one to
  refuse it.
-/
theorem exists_first_refusal
    {members : List Renderer}
    (hSome :
      ∃ r ∈ members, (r.receive meaning items).refusal ≠ none) :
    ∃ k before r later, members = before ++ r :: later ∧
      (∀ j < k, ∀ q ∈ members,
        ¬ RefusesAt meaning items q j) ∧
      (∀ q ∈ before, ¬ RefusesAt meaning items q k) ∧
      RefusesAt meaning items r k := by
  classical
  have hItem :
      ∃ k, ∃ r ∈ members, RefusesAt meaning items r k := by
    rcases hSome with ⟨r, hMember, hRefused⟩
    rcases exists_refusesAt hRefused with ⟨k, hRefuses⟩
    exact ⟨k, r, hMember, hRefuses⟩
  rcases exists_first_member (Nat.find_spec hItem) with
    ⟨before, r, later, hSplit, hRefuses, hBefore⟩
  refine ⟨Nat.find hItem, before, r, later, hSplit, ?_,
    hBefore, hRefuses⟩
  exact fun j hEarlier q hMember hRefuses =>
    Nat.find_min hItem hEarlier ⟨q, hMember, hRefuses⟩

------------------------------------------------------------
-- Plays
------------------------------------------------------------

variable {σ : Type} [Source σ (Item α)]
variable {s : σ}

/- Who receives all items is finished. -/
theorem play_of_received
    (hYields : Source.Yields s items)
    (hGranted : (r.receive meaning items).refusal = none) :
    play meaning r s =
      (r.receive meaning items).renderer.call .finish := by
  rw [play_eq_answer meaning r s items hYields,
    answer_append_of_granted hGranted]
  exact answer_singleton _ _

/- Who refuses an item is left as it is then. -/
theorem play_of_refused
    (hYields : Source.Yields s items)
    {n : Nat}
    (hRefused :
      (r.receive meaning (items.take n)).refusal ≠ none) :
    play meaning r s = r.receive meaning (items.take n) := by
  have hItems := List.take_append_drop n items
  rw [play_eq_answer meaning r s items hYields, ← hItems,
    List.map_append, List.append_assoc, List.take_append_drop]
  exact answer_append_of_refused hRefused _

/- A play is refused where an item is. -/
theorem refusal_play
    (hYields : Source.Yields s items) :
    (play meaning r s).refusal =
      (r.receive meaning items).refusal := by
  cases hReceived : (r.receive meaning items).refusal with
  | none =>
      rw [play_of_received hYields hReceived]
      exact refusal_finish _
  | some e =>
      have hRefused :
          (r.receive meaning
            (items.take items.length)).refusal ≠ none := by
        rw [List.take_length, hReceived]
        exact Option.some_ne_none e
      rw [play_of_refused hYields hRefused, List.take_length]
      exact hReceived

/- What every member receives, a batch receives as a whole. -/
theorem receive_batch
    {members : List Renderer}
    (hGranted :
      ∀ r ∈ members, (r.receive meaning items).refusal = none) :
    (batch members).receive meaning items =
      ⟨batch
          (members.map fun r =>
            (r.receive meaning items).renderer),
        none⟩ :=
  answer_batch hGranted

/- A batch that receives all items is finished as a whole. -/
theorem play_batch_of_received
    {members : List Renderer}
    (hYields : Source.Yields s items)
    (hGranted :
      ∀ r ∈ members, (r.receive meaning items).refusal = none) :
    play meaning (batch members) s =
      ⟨batch (members.map fun r => (play meaning r s).renderer),
        none⟩ := by
  have hBatch := receive_batch hGranted
  rw [play_of_received hYields (by rw [hBatch]), hBatch, call,
    callAll_of_granted fun q _ => refusal_finish q]
  simp only [List.map_map]
  congr 2
  apply List.map_congr_left
  intro r hMember
  rw [play_of_received hYields (hGranted r hMember)]
  rfl

/-
  The first member to refuse an item keeps it from those
  behind, and its cause is that of the batch.
-/
theorem receive_batch_of_refused
    {before later : List Renderer}
    {k : Nat}
    (hReceived :
      ∀ q ∈ before ++ r :: later,
        (q.receive meaning (items.take k)).refusal = none)
    (hBefore :
      ∀ q ∈ before,
        (q.receive meaning (items.take (k + 1))).refusal =
          none)
    (hRefuses : RefusesAt meaning items r k) :
    (batch (before ++ r :: later)).receive meaning
        (items.take (k + 1)) =
      ⟨batch
          ((before.map fun q =>
              (q.receive meaning
                (items.take (k + 1))).renderer) ++
            (r.receive meaning (items.take (k + 1))).renderer ::
            later.map fun q =>
              (q.receive meaning (items.take k)).renderer),
        (r.receive meaning (items.take (k + 1))).refusal⟩ := by
  have hInside := hRefuses.lt_length
  have hBatch := receive_batch hReceived
  have hNext :
      ∀ q ∈ before ++ r :: later,
        q.receive meaning (items.take (k + 1)) =
          (q.receive meaning (items.take k)).renderer.call
            (items[k].toCall meaning) :=
    fun q hMember =>
      receive_take_succ hInside (hReceived q hMember)
  have hGranted :
      ∀ q ∈ before.map fun q =>
          (q.receive meaning (items.take k)).renderer,
        (q.call (items[k].toCall meaning)).refusal = none := by
    rw [List.forall_mem_map]
    intro q hMember
    rw [← hNext q (List.mem_append_left _ hMember)]
    exact hBefore q hMember
  have hCall := hNext r (by simp)
  rcases hLast : r.receive meaning (items.take (k + 1)) with
    ⟨r', _ | e⟩
  · exact absurd (by rw [hLast]) hRefuses.2
  · rw [hLast] at hCall
    rw [receive_take_succ hInside (by rw [hBatch]), hBatch,
      call, List.map_append, List.map_cons,
      callAll_of_refused hGranted hCall.symm, List.map_map]
    have hHeard :
        (before.map fun q =>
            (q.receive meaning (items.take (k + 1))).renderer) =
          before.map fun q =>
            ((q.receive meaning (items.take k)).renderer.call
              (items[k].toCall meaning)).renderer := by
      apply List.map_congr_left
      intro q hMember
      rw [hNext q (List.mem_append_left _ hMember)]
    rw [hHeard]
    rfl

/-
  Whatever a source yields and whatever the symbols mean, a
  batch is played as each of its members is played alone.  If
  none of them refuses an item, each becomes what it becomes
  alone.  Otherwise take the first item that one of them
  refuses, and the first of them to refuse it: the play ends
  with what this one has refused and with what it is then.
  The members before it have received that item too, those
  behind it only the items before, and none is finished.
-/
theorem batch_plays_each
    (meaning : α → Instruction)
    (members : List Renderer)
    (s : σ)
    (items : List (Item α))
    (hYields : Source.Yields s items) :
    ((∀ r ∈ members, (play meaning r s).refusal = none) →
      play meaning (batch members) s =
        ⟨batch
            (members.map fun r => (play meaning r s).renderer),
          none⟩) ∧
    ((∃ r ∈ members, (play meaning r s).refusal ≠ none) →
      ∃ k before r later,
        members = before ++ r :: later ∧
        (∀ j < k, ∀ q ∈ members,
          ¬ RefusesAt meaning items q j) ∧
        (∀ q ∈ before, ¬ RefusesAt meaning items q k) ∧
        RefusesAt meaning items r k ∧
        play meaning r s =
          r.receive meaning (items.take (k + 1)) ∧
        play meaning (batch members) s =
          ⟨batch
              ((before.map fun q =>
                  (q.receive meaning
                    (items.take (k + 1))).renderer) ++
                (play meaning r s).renderer ::
                later.map fun q =>
                  (q.receive meaning
                    (items.take k)).renderer),
            (play meaning r s).refusal⟩) := by
  constructor
  · intro hNone
    apply play_batch_of_received hYields
    intro r hMember
    rw [← refusal_play hYields]
    exact hNone r hMember
  · intro hSome
    simp only [refusal_play hYields] at hSome
    rcases exists_first_refusal hSome with
      ⟨k, before, r, later, rfl, hLeast, hBefore, hRefuses⟩
    have hReceived :
        ∀ q ∈ before ++ r :: later,
          (q.receive meaning (items.take k)).refusal =
            none := by
      intro q hMember
      rw [receive_take_eq_none_iff]
      exact fun j hEarlier => hLeast j hEarlier q hMember
    have hHeard :
        ∀ q ∈ before,
          (q.receive meaning (items.take (k + 1))).refusal =
            none := by
      intro q hMember
      refine Classical.byContradiction fun hRefused => ?_
      exact hBefore q hMember
        ⟨hReceived q (List.mem_append_left _ hMember),
          hRefused⟩
    have hAlone := play_of_refused hYields hRefuses.2
    have hBatch :=
      receive_batch_of_refused hReceived hHeard hRefuses
    refine ⟨k, before, r, later, rfl, hLeast, hBefore,
      hRefuses, hAlone, ?_⟩
    rw [hAlone, ← hBatch]
    apply play_of_refused hYields
    rw [hBatch]
    exact hRefuses.2

/-
  A turtle among others refuses the second item, and so ends
  the play of all.
-/
theorem batch_plays_each_refused :
    let items : List (Item Char) :=
      [.symbol 'F', .event .pop, .symbol 'F']
    let meaning := InstructionTable.standard.meaning
    ∃ t, Turtle.start {} = .ok t ∧
      Source.Yields items items ∧
      (play meaning (turtle t) items).refusal ≠ none ∧
      ∃ k before r later,
        [collector "", batch [recorder []], turtle t,
            recorder []] =
          before ++ r :: later ∧
        RefusesAt meaning items r k ∧
        (play meaning
            (batch
              [collector "", batch [recorder []], turtle t,
                recorder []])
            items).refusal =
          (play meaning r items).refusal := by
  intro items meaning
  have hYields : Source.Yields items items :=
    yields_list items
  have hTurtle :
      ∃ t, Turtle.start {} = .ok t ∧
        (play meaning (turtle t) items).refusal ≠ none := by
    have hCalls :
        items.map (Item.toCall meaning) ++ [.finish] =
          [.render .forward, .pop, .render .forward,
            .finish] := by
      decide
    refine ⟨_, rfl, ?_⟩
    rw [play_list, hCalls, answer_turtle_of_ok rfl,
      answer_turtle_of_error rfl]
    exact Option.some_ne_none _
  rcases hTurtle with ⟨t, hStart, hRefused⟩
  refine ⟨t, hStart, hYields, hRefused, ?_⟩
  have hEach := batch_plays_each meaning
    [collector "", batch [recorder []], turtle t, recorder []]
    items items hYields
  rcases hEach.2 ⟨turtle t, by simp, hRefused⟩ with
    ⟨k, before, r, later, hSplit, _, _, hRefuses, _, hPlay⟩
  exact ⟨k, before, r, later, hSplit, hRefuses, by rw [hPlay]⟩

end Renderer

end Lindenmayer
