import Lindenmayer.Drawing.Markup

/-
  Escaped texts have no meaning in markup.

  The four replacements, made one after the other, come to
  replacing every character by itself.  No character is left
  that begins or ends a tag or a value, and in one pass the
  entities are turned back into the text.

  Key definitions include:
    * `Markup.entity`
    * `Markup.entities`
    * `Markup.unescape`

  Correctness is proven by:
    * `Markup.escapeChars_eq_flatMap`
    * `Markup.escape_append`
    * `Markup.not_mem_escapeChars`
    * `Markup.exists_entity_prefix`
    * `Markup.unescape_escapeChars`
    * `Markup.escape_replaces_each`
-/

------------------------------------------------------------
-- Single Characters
------------------------------------------------------------

namespace Lindenmayer

namespace Markup

/- A character as it is written: by an entity or as it is. -/
def entity : Char → List Char
  | '&' => "&amp;".toList
  | '<' => "&lt;".toList
  | '>' => "&gt;".toList
  | '"' => "&quot;".toList
  | c => [c]

/-
  Every character is escaped by itself: what an ampersand is
  replaced by has no character that is replaced later on.
-/
theorem escapeChars_eq_flatMap
    (cs : List Char) :
    escapeChars cs = cs.flatMap entity := by
  have hSingle :
      ∀ c : Char, escapeChars [c] = entity c := by
    intro c
    unfold entity
    split
    · decide
    · decide
    · decide
    · decide
    · rename_i hAmp hLess hGreater hQuote
      simp only [escapeChars, replace, List.flatMap_singleton,
        if_neg hAmp, if_neg hLess, if_neg hGreater,
        if_neg hQuote]
  have hCons :
      ∀ (c : Char) (cs : List Char),
        escapeChars (c :: cs) =
          escapeChars [c] ++ escapeChars cs := by
    intro c cs
    simp only [escapeChars, replace, List.flatMap_cons,
      List.flatMap_append, List.flatMap_nil, List.append_nil]
  induction cs with
  | nil => rfl
  | cons c cs ih =>
      rw [hCons, hSingle, ih, List.flatMap_cons]

/- So the parts of a text are escaped apart from each other. -/
theorem escape_append
    (s t : String) :
    escape (s ++ t) = escape s ++ escape t := by
  rw [← String.toList_inj]
  simp only [escape, escapeChars_eq_flatMap, String.toList_append,
    String.toList_ofList, List.flatMap_append]

/- Nothing is escaped to what delimits tags and values. -/
theorem not_mem_escapeChars
    (cs : List Char) :
    '<' ∉ escapeChars cs ∧ '>' ∉ escapeChars cs ∧
      '"' ∉ escapeChars cs := by
  have hEntity :
      ∀ c : Char, '<' ∉ entity c ∧ '>' ∉ entity c ∧
        '"' ∉ entity c := by
    intro c
    unfold entity
    split
    · decide
    · decide
    · decide
    · decide
    · rename_i hAmp hLess hGreater hQuote
      simp only [List.mem_singleton]
      exact ⟨Ne.symm hLess, Ne.symm hGreater, Ne.symm hQuote⟩
  rw [escapeChars_eq_flatMap]
  simp only [List.mem_flatMap, not_exists, not_and]
  exact ⟨fun c _ => (hEntity c).1, fun c _ => (hEntity c).2.1,
    fun c _ => (hEntity c).2.2⟩

------------------------------------------------------------
-- Entities
------------------------------------------------------------

/- The texts that stand for characters. -/
def entities : List (List Char) :=
  ["&amp;".toList, "&lt;".toList, "&gt;".toList,
    "&quot;".toList]

/-
  What is written for a character has an ampersand in front
  and nowhere else when it is an entity, and none otherwise.
-/
theorem entity_cases
    (c : Char) :
    (∃ name, entity c = '&' :: name ∧ '&' ∉ name ∧
      entity c ∈ entities) ∨
      entity c = [c] ∧ c ≠ '&' := by
  unfold entity
  split
  · exact .inl ⟨_, rfl, by decide, by decide⟩
  · exact .inl ⟨_, rfl, by decide, by decide⟩
  · exact .inl ⟨_, rfl, by decide, by decide⟩
  · exact .inl ⟨_, rfl, by decide, by decide⟩
  · rename_i hAmp _ _ _
    exact .inr ⟨rfl, hAmp⟩

/- An ampersand stands behind a part that has none. -/
theorem exists_of_ampersand
    {part rest before after : List Char}
    (hPart : '&' ∉ part)
    (hSplit : part ++ rest = before ++ '&' :: after) :
    ∃ before', rest = before' ++ '&' :: after := by
  rcases List.append_eq_append_iff.mp hSplit with
    ⟨left, _, hRest⟩ | ⟨left, hLeft, hAfter⟩
  · exact ⟨left, hRest⟩
  · cases left with
    | nil => exact ⟨[], hAfter.symm⟩
    | cons d left =>
        rw [List.cons_append] at hAfter
        rcases List.cons.inj hAfter with ⟨rfl, _⟩
        exact absurd (hLeft ▸ by simp) hPart

/- Every ampersand of an escaped text begins an entity. -/
theorem exists_entity_prefix
    {cs before after : List Char}
    (hSplit : escapeChars cs = before ++ '&' :: after) :
    ∃ e ∈ entities, e <+: '&' :: after := by
  rw [escapeChars_eq_flatMap] at hSplit
  induction cs generalizing before with
  | nil => simp at hSplit
  | cons c cs ih =>
      rw [List.flatMap_cons] at hSplit
      rcases entity_cases c with
        ⟨name, hEntity, hName, hMember⟩ | ⟨hPlain, hOther⟩
      · cases before with
        | nil => exact ⟨entity c, hMember, _, hSplit⟩
        | cons b before =>
            rw [hEntity, List.cons_append, List.cons_append]
              at hSplit
            rcases exists_of_ampersand hName
                (List.cons.inj hSplit).2 with
              ⟨before', hRest⟩
            exact ih hRest
      · rw [hPlain] at hSplit
        rcases exists_of_ampersand (by simpa using hOther.symm)
            hSplit with
          ⟨before', hRest⟩
        exact ih hRest

/-
  Turn the entities of a text back, from left to right.  An
  ampersand that begins none of them is refused.
-/
def unescape : List Char → Option (List Char)
  | [] => some []
  | '&' :: 'a' :: 'm' :: 'p' :: ';' :: cs =>
      (unescape cs).map ('&' :: ·)
  | '&' :: 'l' :: 't' :: ';' :: cs =>
      (unescape cs).map ('<' :: ·)
  | '&' :: 'g' :: 't' :: ';' :: cs =>
      (unescape cs).map ('>' :: ·)
  | '&' :: 'q' :: 'u' :: 'o' :: 't' :: ';' :: cs =>
      (unescape cs).map ('"' :: ·)
  | c :: cs =>
      if c = '&' then none else (unescape cs).map (c :: ·)

theorem unescape_cons_of_ne
    {c : Char}
    (hPlain : c ≠ '&')
    (cs : List Char) :
    unescape (c :: cs) = (unescape cs).map (c :: ·) := by
  rw [unescape, if_neg hPlain]
  all_goals exact fun _ hEq => absurd hEq hPlain

theorem unescape_entity_append
    (c : Char)
    (cs : List Char) :
    unescape (entity c ++ cs) =
      (unescape cs).map (c :: ·) := by
  unfold entity
  split
  · rfl
  · rfl
  · rfl
  · rfl
  · exact unescape_cons_of_ne (by assumption) cs

/- What was escaped is turned back. -/
theorem unescape_escapeChars
    (cs : List Char) :
    unescape (escapeChars cs) = some cs := by
  rw [escapeChars_eq_flatMap]
  induction cs with
  | nil => rfl
  | cons c cs ih =>
      rw [List.flatMap_cons, unescape_entity_append, ih]
      rfl

------------------------------------------------------------
-- Escaped Texts
------------------------------------------------------------

/-
  A text is escaped character by character.  So nothing in it
  delimits tags and values, every ampersand begins an entity,
  turning the entities back gives the text, and two texts are
  escaped one after the other.
-/
theorem escape_replaces_each
    (s t : String) :
    (escape s).toList = s.toList.flatMap entity ∧
      ('<' ∉ (escape s).toList ∧ '>' ∉ (escape s).toList ∧
        '"' ∉ (escape s).toList) ∧
      (∀ before after,
        (escape s).toList = before ++ '&' :: after →
          ∃ e ∈ entities, e <+: '&' :: after) ∧
      unescape (escape s).toList = some s.toList ∧
      escape (s ++ t) = escape s ++ escape t := by
  have hChars : (escape s).toList = escapeChars s.toList :=
    String.toList_ofList
  rw [hChars]
  exact ⟨escapeChars_eq_flatMap _, not_mem_escapeChars _,
    fun _ _ hSplit => exists_entity_prefix hSplit,
    unescape_escapeChars _, escape_append s t⟩

/- A text with an entity in it is told from the character. -/
theorem escape_replaces_each_entity :
    (escape "&lt;<").toList = "&amp;lt;&lt;".toList ∧
      (∃ e ∈ entities, e <+: "&lt;".toList) ∧
      unescape "&amp;lt;&lt;".toList = some "&lt;<".toList ∧
      escape ("&lt;<" ++ "\"") =
        escape "&lt;<" ++ escape "\"" := by
  rcases escape_replaces_each "&lt;<" "\"" with
    ⟨hEach, _, hEntities, hBack, hAppend⟩
  have hWritten :
      (escape "&lt;<").toList = "&amp;lt;&lt;".toList :=
    hEach.trans (by decide)
  refine ⟨hWritten, ?_, hWritten ▸ hBack, hAppend⟩
  exact hEntities "&amp;lt;".toList "lt;".toList hWritten

end Markup

end Lindenmayer
