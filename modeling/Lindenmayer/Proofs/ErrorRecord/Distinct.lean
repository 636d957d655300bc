import Mathlib.Data.Finset.Card
import Lindenmayer.ErrorRecord

/-
  Which errors of a record are the same.

  Parse errors are equal when they are of the same kind and
  carry the same payload: the text that belongs to the cause,
  if there is one, and then the notes.  Each occurrence of
  another error is a kind of its own.  Equal errors count once
  among the distinct ones.

  Key definitions include:
    * `ErrorRecord.Kind`
    * `ErrorRecord.kind`
    * `ErrorRecord.payload`

  Correctness is proven by:
    * `ErrorRecord.eq_iff`
    * `ErrorRecord.distinct_eq_card`
-/

------------------------------------------------------------
-- Parse Errors
------------------------------------------------------------

namespace Lindenmayer

namespace ErrorRecord

/- The kinds of errors. -/
inductive Kind where
  | unreadableFile
  | expectedCharacter
  | expectedEnd
  | expectedText
  | unexpectedCharacter
  | endOfInput
  | noAlternative
  | unspecified
  | custom
  | causeless
  | other (occurrence : Nat)
deriving DecidableEq, Repr

/- The kind of a parse error. -/
def causeKind : ParseError → Kind
  | .unreadableFile _ => .unreadableFile
  | .expectedCharacter _ => .expectedCharacter
  | .expectedEnd => .expectedEnd
  | .expectedText _ => .expectedText
  | .unexpectedCharacter => .unexpectedCharacter
  | .endOfInput => .endOfInput
  | .noAlternative => .noAlternative
  | .unspecified => .unspecified
  | .custom _ => .custom

/- The texts that a parse error carries: one or none. -/
def causeTexts : ParseError → List String
  | .unreadableFile path => [path]
  | .expectedCharacter c => [c]
  | .expectedText s => [s]
  | .custom m => [m]
  | _ => []

/- How many texts a parse error carries is up to its kind. -/
theorem length_causeTexts_congr
    {e f : ParseError}
    (hKind : causeKind e = causeKind f) :
    (causeTexts e).length = (causeTexts f).length := by
  cases e <;> cases f <;> first | rfl | cases hKind

theorem cause_ext
    {e f : ParseError}
    (hKind : causeKind e = causeKind f)
    (hTexts : causeTexts e = causeTexts f) :
    e = f := by
  cases e <;> cases f <;>
    first
    | rfl
    | (cases hTexts; rfl)
    | cases hKind

theorem causeKind_ne
    (e : ParseError) :
    causeKind e ≠ .causeless ∧
      ∀ k, causeKind e ≠ .other k := by
  cases e <;> simp [causeKind]

------------------------------------------------------------
-- Records
------------------------------------------------------------

/- The kind of an error. -/
def kind : ErrorRecord → Kind
  | .parse e _ => causeKind e
  | .causeless _ => .causeless
  | .other k _ => .other k

/- The payload of an error. -/
def payload : ErrorRecord → List Symbol
  | .parse e notes =>
      (causeTexts e).map Symbol.text ++ notes
  | .causeless notes => notes
  | .other _ notes => notes

/- Parse errors of a kind with a payload are the same. -/
theorem parse_ext
    {e f : ParseError}
    {notes others : List Symbol}
    (hKind : causeKind e = causeKind f)
    (hPayload :
      (parse e notes).payload = (parse f others).payload) :
    parse e notes = parse f others := by
  have hLength :
      ((causeTexts e).map Symbol.text).length =
        ((causeTexts f).map Symbol.text).length := by
    rw [List.length_map, List.length_map,
      length_causeTexts_congr hKind]
  rcases List.append_inj hPayload hLength with
    ⟨hMapped, rfl⟩
  have hTexts : causeTexts e = causeTexts f :=
    List.map_injective_iff.mpr
      (fun _ _ hSame => Symbol.text.inj hSame) hMapped
  rw [cause_ext hKind hTexts]

/-
  Errors are equal when they are of the same kind and carry
  the same payload.
-/
theorem eq_iff
    (r s : ErrorRecord) :
    r = s ↔ r.kind = s.kind ∧ r.payload = s.payload := by
  constructor
  · rintro rfl
    exact ⟨rfl, rfl⟩
  · rintro ⟨hKind, hPayload⟩
    cases r with
    | parse e notes =>
        cases s with
        | parse f others => exact parse_ext hKind hPayload
        | causeless others =>
            exact absurd hKind (causeKind_ne e).1
        | other k others =>
            exact absurd hKind ((causeKind_ne e).2 k)
    | causeless notes =>
        cases s with
        | parse f others =>
            exact absurd hKind.symm (causeKind_ne f).1
        | causeless others => exact congrArg _ hPayload
        | other k others => cases hKind
    | other k notes =>
        cases s with
        | parse f others =>
            exact absurd hKind.symm ((causeKind_ne f).2 k)
        | causeless others => cases hKind
        | other k' others =>
            cases hKind
            exact congrArg _ hPayload

------------------------------------------------------------
-- Distinct Errors
------------------------------------------------------------

theorem nodup_eraseDups
    {α : Type}
    [DecidableEq α] :
    ∀ xs : List α, xs.eraseDups.Nodup
  | [] => by simp
  | a :: xs => by
      rw [List.eraseDups_cons, List.nodup_cons]
      refine ⟨?_, nodup_eraseDups _⟩
      simp [List.mem_eraseDups]
termination_by xs => xs.length
decreasing_by
  exact Nat.lt_succ_of_le (List.length_filter_le _ _)

/- The distinct errors are those of the record as a set. -/
theorem distinct_eq_card
    (es : List ErrorRecord) :
    distinct es = es.toFinset.card := by
  have hMembers : es.eraseDups.toFinset = es.toFinset := by
    ext r
    simp only [List.mem_toFinset, List.mem_eraseDups]
  rw [distinct, ← hMembers,
    List.toFinset_card_of_nodup (nodup_eraseDups es)]

end ErrorRecord

end Lindenmayer
