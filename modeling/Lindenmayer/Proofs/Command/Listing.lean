import Lindenmayer.Proofs.Command.Outcome
import Lindenmayer.Proofs.Command.Unfolded
import Lindenmayer.Proofs.Grammar.PlainFile
import Lindenmayer.Proofs.Play.Collected
import Lindenmayer.Proofs.Text.Quoted

/-
  What expanding a grammar prints.

  The items of the subject, or as many of them as a limit
  allows, are listed: the symbols side by side, the events
  apart, or the glyphs of either.  What is printed up to a
  limit is the beginning of what is printed up to a greater
  one.

  The texts of the items and their glyphs are written out
  here, whatever tables the program looks them up in.

  Key definitions include:
    * `Command.rawText`
    * `Command.glyphText`
    * `Command.listing`

  Correctness is proven by:
    * `Command.describe_eq_rawText`
    * `Command.glyph_toCall`
    * `Command.itemsText_eq_listing`
    * `Command.expandText_eq_listing`
    * `Command.listing_prefix`
    * `Command.expansion_listed`
-/

------------------------------------------------------------
-- Listings
------------------------------------------------------------

namespace Lindenmayer

namespace Command

/- The text of an item: a symbol is its own. -/
def rawText : Item Char → String
  | .symbol c => c.toString
  | .event .push => "Push"
  | .event .pop => "Pop"
  | .event (.render c) => "Render(" ++ Text.quotedChar c ++ ")"

/- The glyph of a symbol; most symbols have none. -/
def symbolGlyph : Char → String
  | 'F' => "F"
  | 'G' => "F"
  | '-' => "-"
  | '+' => "+"
  | '[' => "["
  | ']' => "]"
  | '>' => ">"
  | '<' => "<"
  | _ => ""

/- The glyph of an item: branches stand between brackets. -/
def glyphText : Item Char → String
  | .symbol c => symbolGlyph c
  | .event .push => "["
  | .event .pop => "]"
  | .event (.render c) => symbolGlyph c

/-
  The text of items.  Raw symbols stand side by side, and raw
  events have a space between them.
-/
def listing
    (b : Bound)
    (raw : Bool)
    (items : List (Item Char)) : String :=
  match raw, b with
  | true, .iterations _ => String.join (items.map rawText)
  | true, .depth _ => " ".intercalate (items.map rawText)
  | false, _ => String.join (items.map glyphText)

/- Items are described by their texts. -/
theorem describe_eq_rawText :
    describe = rawText := by
  funext i
  rcases i with c | e
  · rfl
  · cases e with
    | push => rfl
    | pop => rfl
    | render c =>
        rw [rawText, ← Text.quote_toString]
        rfl

theorem glyph_meaning
    (c : Char) :
    (meaning c).glyph = symbolGlyph c := by
  unfold symbolGlyph
  split
  · rfl
  · rfl
  · rfl
  · rfl
  · rfl
  · rfl
  · rfl
  · rfl
  · rename_i hF hG hLeft hRight hPush hPop hMore hLess
    rw [imp_false] at hF hG hLeft hRight hPush hPop hMore hLess
    simp [meaning, InstructionTable.meaning,
      InstructionTable.lastEntry, InstructionTable.standard,
      Instruction.glyph, Ne.symm hF, Ne.symm hG,
      Ne.symm hLeft, Ne.symm hRight, Ne.symm hPush,
      Ne.symm hPop, Ne.symm hMore, Ne.symm hLess]

/- The call that an item makes has its glyph. -/
theorem glyph_toCall :
    Call.glyph ∘ Item.toCall meaning = glyphText := by
  funext i
  rcases i with c | e
  · exact glyph_meaning c
  · cases e with
    | push => rfl
    | pop => rfl
    | render c => exact glyph_meaning c

theorem intercalate_empty
    (texts : List String) :
    "".intercalate texts = String.join texts := by
  induction texts with
  | nil => rfl
  | cons s texts ih =>
      rw [String.join_cons, ← ih]
      cases texts with
      | nil => simp
      | cons u texts => simp

/- What a source yields is written as its listing. -/
theorem itemsText_eq_listing
    (b : Bound)
    (raw : Bool)
    {limited : Limited (Unfolding Char)}
    {items : List (Item Char)}
    (hYields : Source.Yields limited items) :
    itemsText b raw limited = .ok (listing b raw items) := by
  cases raw with
  | true =>
      rw [itemsText, if_pos rfl, hYields.collect_eq,
        describe_eq_rawText]
      cases b with
      | iterations n =>
          simp only [listing, separator, intercalate_empty]
      | depth d => rfl
  | false =>
      have hFinish : Renderer.glyphs [.finish] = "" := rfl
      rw [itemsText, if_neg Bool.false_ne_true,
        Renderer.play_eq_answer meaning _ _ _ hYields,
        Renderer.answer_collector, Renderer.glyphs_append,
        hFinish, Renderer.glyphs, List.map_map, glyph_toCall,
        String.append_empty, String.empty_append, listing]
      rfl

/-
  An expansion up to a limit that can be counted to prints the
  listing of as many items, and a line end.
-/
theorem expandText_eq_listing
    {s : Subject}
    {l : LSystem}
    {u : Unfolding Char}
    {items : List (Item Char)}
    (hUnfold : unfold s l = .ok u)
    (hYields : Source.Yields u items)
    {limit : Option Int}
    (hLimit : ∀ k ∈ limit, k ≤ greatestLimit)
    (raw : Bool) :
    expandText s limit raw l =
      .ok
        (listing s.bound raw
            (Limited.cut (limit.map Int.toNat) items) ++
          "\n") := by
  have hCounted : ¬ limit.any (greatestLimit < ·) = true := by
    rw [Option.any_eq_true]
    rintro ⟨k, hMember, hLarge⟩
    have hSmall := hLimit k hMember
    rw [decide_eq_true_eq] at hLarge
    omega
  simp only [expandText, hUnfold, if_neg hCounted,
    itemsText_eq_listing s.bound raw
      (Limited.yields_cut hYields _)]

------------------------------------------------------------
-- Longer Listings
------------------------------------------------------------

/- Texts in a row begin with the first of them in a row. -/
theorem join_prefix
    {texts others : List String}
    (hPrefix : texts <+: others) :
    (String.join texts).toList <+:
      (String.join others).toList := by
  rcases hPrefix with ⟨rest, rfl⟩
  rw [String.join_append, String.toList_append]
  exact List.prefix_append _ _

theorem intercalate_prefix
    (separator : String)
    {texts others : List String}
    (hPrefix : texts <+: others) :
    (separator.intercalate texts).toList <+:
      (separator.intercalate others).toList := by
  rcases hPrefix with ⟨rest, rfl⟩
  by_cases hTexts : texts = []
  · rw [hTexts, String.intercalate_nil]
    exact List.nil_prefix
  · by_cases hRest : rest = []
    · rw [hRest, List.append_nil]
    · rw [String.intercalate_append_of_ne_nil hTexts hRest,
        String.append_assoc, String.toList_append]
      exact List.prefix_append _ _

/- The listing of more items begins with that of fewer. -/
theorem listing_prefix
    (b : Bound)
    (raw : Bool)
    {items others : List (Item Char)}
    (hPrefix : items <+: others) :
    (listing b raw items).toList <+:
      (listing b raw others).toList := by
  cases raw with
  | true =>
      cases b with
      | iterations n => exact join_prefix (hPrefix.map _)
      | depth d => exact intercalate_prefix " " (hPrefix.map _)
  | false => exact join_prefix (hPrefix.map _)

------------------------------------------------------------
-- Answers
------------------------------------------------------------

/-
  A command line that asks for an expansion is answered by the
  text of the expansion, and nothing is touched.
-/
theorem answer_of_expandText
    {words : List String}
    {r : Request}
    {s : Subject}
    {limit : Option Int}
    {raw : Bool}
    {l : LSystem}
    {text : String}
    (t : Files.Tree)
    (hRequest : ofWords words = .ok r)
    (hCommand : r.command = .expand s limit raw)
    (hGrammar :
      LSystem.ofFile s.grammar (t.read s.grammar) = .ok l)
    (hLimit : ∀ k ∈ limit, 0 ≤ k)
    (hText : expandText s limit raw l = .ok text) :
    answer Files.Tree.disk words t =
      (.ok (.success text), t) := by
  have hCounted :
      (Command.expand s limit raw).hasNegativeLimit = false := by
    cases limit with
    | none => rfl
    | some k =>
        have hPositive := hLimit k rfl
        simp only [hasNegativeLimit, decide_eq_false_iff_not]
        omega
  apply answer_of_done t hRequest
  rw [hCommand, subject, hGrammar, work, hCounted,
    if_neg Bool.false_ne_true, workOn, hText]
  rfl

/-
  For every grammar that is read, and every seed and valid
  bound, all command lines that expand it print the listing of
  the same items, cut at their limits.  These are the symbols
  that rewriting builds or the events that the stream yields.
  A listing up to a limit begins every one up to a greater.
-/
theorem expansion_listed
    (t : Files.Tree)
    (s : Subject)
    (l : LSystem)
    (hGrammar :
      LSystem.ofFile s.grammar (t.read s.grammar) = .ok l)
    (hBound : s.HasValidBound) :
    ∃ items,
      Unfolds s l items ∧
      (∀ words r limit raw,
        ofWords words = .ok r →
        r.command = .expand s limit raw →
        (∀ k ∈ limit, 0 ≤ k ∧ k ≤ greatestLimit) →
        answer Files.Tree.disk words t =
          (.ok
            (.success
              (listing s.bound raw
                  (Limited.cut (limit.map Int.toNat) items) ++
                "\n")), t)) ∧
      ∀ raw k k', k ≤ k' →
        (listing s.bound raw (items.take k)).toList <+:
          (listing s.bound raw (items.take k')).toList := by
  rcases exists_unfolds hBound l with
    ⟨u, items, hUnfold, hYields, hItems⟩
  refine ⟨items, hItems, ?_, ?_⟩
  · intro words r limit raw hRequest hCommand hLimit
    exact answer_of_expandText t hRequest hCommand hGrammar
      (fun k hMember => (hLimit k hMember).1)
      (expandText_eq_listing hUnfold hYields
        (fun k hMember => (hLimit k hMember).2) raw)
  · intro raw k k' hLe
    exact listing_prefix s.bound raw
      (List.take_prefix_take_left hLe)

/-
  Symbols without a glyph are counted by the limit, and the
  single quote is quoted by double ones.
-/
theorem expansion_listed_counting :
    let rules : List (Rule Char) := [⟨'X', ['G', '+', '\'']⟩]
    let source := String.ofList (FileFormat.plain [] rules)
    let t : Files.Tree := ⟨[], [(["g"], .file source.toUTF8)]⟩
    let flat : Subject := ⟨"g", "XX", .iterations 1⟩
    let nested : Subject := ⟨"g", "X", .depth 2⟩
    LSystem.ofFile "g" (t.read "g") =
        .ok ⟨.ofPairs rules, {}⟩ ∧
      flat.HasValidBound ∧
      nested.HasValidBound ∧
      answer Files.Tree.disk
          ["expand", "g", "-aXX", "--iterations", "1",
            "--limit", "5", "--raw"] t =
        (.ok (.success "G+'G+\n"), t) ∧
      answer Files.Tree.disk
          ["expand", "g", "-aXX", "--iterations", "1",
            "--limit", "5"] t =
        (.ok (.success "F+F+\n"), t) ∧
      answer Files.Tree.disk
          ["expand", "g", "-aX", "--depth", "2",
            "--limit", "5", "--raw"] t =
        (.ok
          (.success
            ("Push Push Render('G') Render('+') " ++
              "Render(\"'\")\n")), t) ∧
      answer Files.Tree.disk
          ["expand", "g", "-aX", "--depth", "2"] t =
        (.ok (.success "[[F+]]\n"), t) ∧
      "F+".toList <+: "F+F+".toList := by
  intro rules source t flat nested
  have hGrammar :
      LSystem.ofFile "g" (t.read "g") =
        .ok ⟨.ofPairs rules, {}⟩ :=
    FileFormat.ofFile_only_plain rules (by decide)
      (List.cons_ne_nil _ _)
  have hFlat : flat.HasValidBound := by
    simp [flat, Subject.HasValidBound]
  have hNested : nested.HasValidBound := by
    simp [nested, Subject.HasValidBound]
  rcases expansion_listed t flat _ hGrammar hFlat with
    ⟨symbols, hSymbols, hListed, hPrefix⟩
  rcases expansion_listed t nested _ hGrammar hNested with
    ⟨events, hEvents, hListed', _⟩
  have hWord :
      (RuleStore.ofPairs rules).generation "XX".toList 1 =
        .ok "G+'G+'".toList := by
    decide +kernel
  have hStart :
      EventStream.start (.ofPairs rules) "X".toList 2 =
        .ok ⟨.ofPairs rules, 2, some 'X', []⟩ :=
    EventStream.start_eq_ok _ 'X' [] 2 (by decide)
  cases hSymbols.unique (.flat rfl hWord)
  cases hEvents.unique
    (.nested rfl hStart (EventStream.yields_remaining _))
  refine ⟨hGrammar, hFlat, hNested, ?_, ?_, ?_, ?_,
    hPrefix false 3 5 (by decide)⟩
  · exact hListed _ ⟨.expand flat (some 5) true, []⟩
      (some 5) true (by decide +kernel) rfl (by decide)
  · exact hListed _ ⟨.expand flat (some 5) false, []⟩
      (some 5) false (by decide +kernel) rfl (by decide)
  · exact hListed' _ ⟨.expand nested (some 5) true, []⟩
      (some 5) true (by decide +kernel) rfl (by decide)
  · exact hListed' _ ⟨.expand nested none false, []⟩
      none false (by decide +kernel) rfl (by decide)

end Command

end Lindenmayer
