import Lindenmayer.Command.Session
import Lindenmayer.Proofs.Grammar.Acceptance
import Lindenmayer.Proofs.Grammar.LineEnds
import Lindenmayer.Proofs.Grammar.PlainFile
import Lindenmayer.Proofs.RuleStore.Extensional

/-
  The order of the lines of a grammar does not matter beyond
  the last line for each key and for each symbol.

  Two grammars with the same last lines describe L-systems
  that are the same but for the order of their rules.  This
  order shows in the listing of the rules alone; nothing that
  is drawn or expanded depends on it.

  Key definitions include:
    * `LSystem.Same`

  Correctness is proven by:
    * `LSystem.same_of_last_lines`
    * `Command.renderText_same`
    * `Command.expandText_same`
    * `LSystem.line_order_irrelevant`
-/

------------------------------------------------------------
-- Same L-Systems
------------------------------------------------------------

namespace Lindenmayer

namespace LSystem

/-
  L-systems are the same when they are drawn in the same way
  and their stores are the same.
-/
structure Same
    (l l' : LSystem) : Prop where
  config : l.config = l'.config
  rules : (l.rules == l'.rules) = true

/- The last lines tell all about an L-system. -/
theorem same_of_last_lines
    {settings settings' : List Setting}
    {rules rules' : List (Rule Char)}
    (hNumbers :
      ∀ k,
        (settings.filterMap (Setting.number? k)).getLast? =
          (settings'.filterMap (Setting.number? k)).getLast?)
    (hColors :
      ∀ k,
        (settings.filterMap (Setting.color? k)).getLast? =
          (settings'.filterMap (Setting.color? k)).getLast?)
    (hRules :
      ∀ a,
        RuleStore.lastProduction? rules a =
          RuleStore.lastProduction? rules' a) :
    Same ⟨.ofPairs rules, .ofSettings settings⟩
      ⟨.ofPairs rules', .ofSettings settings'⟩ where
  config := by
    apply Config.ext_of_keys
    · intro k
      rw [Config.number_ofSettings, Config.number_ofSettings,
        hNumbers]
    · intro k
      rw [Config.color_ofSettings, Config.color_ofSettings,
        hColors]
  rules := by
    rw [RuleStore.same_iff]
    intro a
    rw [RuleStore.production?_ofPairs,
      RuleStore.production?_ofPairs, hRules]

end LSystem

------------------------------------------------------------
-- Works
------------------------------------------------------------

namespace Command

open LSystem (Same)

variable {l l' : LSystem}

theorem unfold_alike
    (hSame : Same l l')
    (s : Subject) :
    (∃ e, unfold s l = .error e ∧ unfold s l' = .error e) ∨
      ∃ u v, unfold s l = .ok u ∧ unfold s l' = .ok v ∧
        u.Alike v := by
  rw [unfold, unfold]
  rcases Unfolding.start_alike
      ((RuleStore.same_iff _ _).mp hSame.rules)
      s.seed.toList s.bound with
    ⟨e, hStart, hStart'⟩ | ⟨u, v, hStart, hStart', hAlike⟩
  · rw [hStart, hStart']
    exact .inl ⟨_, rfl, rfl⟩
  · rw [hStart, hStart']
    exact .inr ⟨u, v, rfl, rfl, hAlike⟩

/- The turtle is told the same by both unfoldings. -/
theorem renderText_same
    (hSame : Same l l')
    (s : Subject)
    (margin : Float) :
    renderText s margin l = renderText s margin l' := by
  rw [renderText, renderText, hSame.config]
  rcases unfold_alike hSame s with
    ⟨e, hUnfold, hUnfold'⟩ |
      ⟨u, v, hUnfold, hUnfold', hAlike⟩
  · rw [hUnfold, hUnfold']
  · have hDraw : draw l'.config u = draw l'.config v := by
      simp only [draw, Unfolding.lockstep.play_eq hAlike]
    rw [hUnfold, hUnfold']
    simp only [hDraw]

/- The limit allows as many items of both unfoldings. -/
theorem expandText_same
    (hSame : Same l l')
    (s : Subject)
    (limit : Option Int)
    (raw : Bool) :
    expandText s limit raw l = expandText s limit raw l' := by
  rw [expandText, expandText]
  rcases unfold_alike hSame s with
    ⟨e, hUnfold, hUnfold'⟩ |
      ⟨u, v, hUnfold, hUnfold', hAlike⟩
  · rw [hUnfold, hUnfold']
  · have hLimited := Unfolding.lockstep.limited (α := Item Char)
    have hItems :
        itemsText s.bound raw ⟨u, limit.map Int.toNat⟩ =
          itemsText s.bound raw ⟨v, limit.map Int.toNat⟩ := by
      simp only [itemsText, hLimited.collect_eq
        (s := ⟨u, limit.map Int.toNat⟩)
        (t := ⟨v, limit.map Int.toNat⟩) ⟨hAlike, rfl⟩,
        hLimited.play_eq
          (s := ⟨u, limit.map Int.toNat⟩)
          (t := ⟨v, limit.map Int.toNat⟩) ⟨hAlike, rfl⟩]
    rw [hUnfold, hUnfold']
    simp only [hItems]

/- Only the account of a grammar lists its rules. -/
theorem work_same
    (hSame : Same l l')
    (c : Command)
    (hSilent : ∀ s, c ≠ .validate s) :
    c.work (.ok l) = c.work (.ok l') := by
  cases c with
  | render s output margin =>
      simp only [work, workOn, renderWork,
        renderText_same hSame]
  | validate s => exact absurd rfl (hSilent s)
  | expand s limit raw =>
      simp only [work, workOn, expandText_same hSame]

end Command

------------------------------------------------------------
-- Line Order
------------------------------------------------------------

namespace LSystem

/-
  Two grammars with the same last value for each key and the
  same last production for each symbol are both accepted and
  make L-systems that are the same.  Every word unfolds alike
  by both, pull by pull, and so both are drawn and expanded
  alike, whatever the command line asks for and whatever
  writing does.
-/
theorem line_order_irrelevant
    (source source' : String)
    (settings settings' : List Setting)
    (rules rules' : List (Rule Char))
    (hFile :
      source.toList ∈ FileFormat.fileOf settings rules)
    (hFile' :
      source'.toList ∈ FileFormat.fileOf settings' rules')
    (hNumbers :
      ∀ k,
        (settings.filterMap (Setting.number? k)).getLast? =
          (settings'.filterMap (Setting.number? k)).getLast?)
    (hColors :
      ∀ k,
        (settings.filterMap (Setting.color? k)).getLast? =
          (settings'.filterMap (Setting.color? k)).getLast?)
    (hRules :
      ∀ a,
        RuleStore.lastProduction? rules a =
          RuleStore.lastProduction? rules' a) :
    ∃ l l',
      parse source.toList = .ok l ∧
      parse source'.toList = .ok l' ∧
      Same l l' ∧
      (∀ seed b,
        (∃ e, Unfolding.start l.rules seed b = .error e ∧
            Unfolding.start l'.rules seed b = .error e) ∨
          ∃ u v, Unfolding.start l.rules seed b = .ok u ∧
            Unfolding.start l'.rules seed b = .ok v ∧
            ∀ k, (Source.pull (Source.after k u)).1 =
              (Source.pull (Source.after k v)).1) ∧
      ∀ (m : Type → Type) [Monad m] [LawfulMonad m]
        (write :
          String → String → m (Except Files.AccessError Unit))
        (r : Command.Request),
        (∀ s, r.command ≠ .validate s) →
        Command.run
            ⟨fun _ => pure (.ok source.toUTF8), write⟩ r =
          Command.run
            ⟨fun _ => pure (.ok source'.toUTF8), write⟩ r := by
  have hParse := parse_of_mem_fileOf hFile
  have hParse' := parse_of_mem_fileOf hFile'
  have hSame := same_of_last_lines hNumbers hColors hRules
  refine ⟨_, _, hParse, hParse', hSame, ?_, ?_⟩
  · intro seed b
    rcases Unfolding.start_alike
        ((RuleStore.same_iff _ _).mp hSame.rules) seed b with
      hError | ⟨u, v, hStart, hStart', hAlike⟩
    · exact .inl hError
    · exact .inr ⟨u, v, hStart, hStart',
        Unfolding.lockstep.pull_after hAlike⟩
  · intro m _ _ write r hSilent
    simp only [Command.run, pure_bind, ofFile_toUTF8, hParse,
      hParse', Except.mapError, Command.Request.work,
      Command.work_same hSame r.command hSilent]
    rfl

/- An overwritten rule leaves only its place in the order. -/
theorem line_order_irrelevant_repeated :
    let rules : List (Rule Char) :=
      [⟨'A', ['B']⟩, ⟨'B', ['A', 'A']⟩]
    let rules' : List (Rule Char) :=
      [⟨'B', ['A', 'A']⟩, ⟨'A', ['A']⟩, ⟨'A', ['B']⟩]
    let source :=
      "render:\npen_color=red\nrules:\nA=>B\nB=>AA\n"
    let source' :=
      "render:\npen_color=blue\npen_color=red\n" ++
        "rules:\nB=>AA\nA=>A\nA=>B\n"
    (RuleStore.ofPairs rules).rules ≠
        (RuleStore.ofPairs rules').rules ∧
      ∃ l l', parse source.toList = .ok l ∧
        parse source'.toList = .ok l' ∧ Same l l' := by
  intro rules rules' source source'
  have hSource :
      source.toList =
        FileFormat.plain [(.pen, "red")] rules := by
    decide +kernel
  have hSource' :
      source'.toList =
        FileFormat.plain [(.pen, "blue"), (.pen, "red")]
          rules' := by
    decide +kernel
  have hFile := FileFormat.plain_mem_fileOf
    [(.pen, "red")] rules (by decide) (by decide)
    (List.cons_ne_nil _ _)
  have hFile' := FileFormat.plain_mem_fileOf
    [(.pen, "blue"), (.pen, "red")] rules'
    (by decide) (by decide) (List.cons_ne_nil _ _)
  rw [← hSource] at hFile
  rw [← hSource'] at hFile'
  have hLast :
      ∀ a, RuleStore.lastProduction? rules a =
        RuleStore.lastProduction? rules' a := by
    intro a
    simp only [RuleStore.lastProduction?, rules, rules']
    by_cases hFirst : 'A' = a
    · subst hFirst
      decide
    · by_cases hSecond : 'B' = a
      · subst hSecond
        decide
      · simp [hFirst, hSecond]
  rcases line_order_irrelevant source source' _ _ _ _ hFile
      hFile' (fun k => rfl) (fun k => by cases k <;> rfl)
      hLast with
    ⟨l, l', hParse, hParse', hSame, _⟩
  exact ⟨by decide, l, l', hParse, hParse', hSame⟩

end LSystem

end Lindenmayer
