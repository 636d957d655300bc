import Lindenmayer.Grammar.Reading
import Lindenmayer.Proofs.Grammar.Acceptance
import Lindenmayer.Proofs.Grammar.LineEnds

/-
  What the reading of a grammar file comes to.

  A file that cannot be accessed is refused by its path, and
  bytes that are UTF-8 are parsed as the text they encode.  Of
  two causes there is no parse error: bytes that encode no
  text, and a path that no file can have.

  Key definitions include:
    * `LSystem.Loads`

  Correctness is proven by:
    * `LSystem.fromUTF8?_eq_none_iff`
    * `LSystem.loads_ofFile`
-/

------------------------------------------------------------
-- Bytes
------------------------------------------------------------

namespace Lindenmayer

namespace LSystem

/- Bytes that are decoded are those of the text. -/
theorem toUTF8_of_fromUTF8?
    {bytes : ByteArray}
    {s : String}
    (hDecode : String.fromUTF8? bytes = some s) :
    s.toUTF8 = bytes := by
  unfold String.fromUTF8? at hDecode
  split at hDecode
  · cases hDecode
    rfl
  · cases hDecode

/- Bytes are not decoded exactly when they encode no text. -/
theorem fromUTF8?_eq_none_iff
    (bytes : ByteArray) :
    String.fromUTF8? bytes = none ↔ ¬ bytes.IsValidUTF8 := by
  unfold String.fromUTF8?
  by_cases hValid : bytes.IsValidUTF8
  · simp [hValid]
  · simp [hValid]

------------------------------------------------------------
-- Files
------------------------------------------------------------

/-
  What a path and the content found there are read to.
-/
inductive Loads
    (path : String) :
    Except Files.AccessError ByteArray →
      Except LoadError LSystem → Prop where
  | loaded
      {s : String}
      {l : LSystem}
      (hFile : s.toList ∈ FileFormat.file)
      (hParse : parse s.toList = .ok l) :
      Loads path (.ok s.toUTF8) (.ok l)
  | malformed
      {s : String}
      {e : ParseError}
      (hFile : s.toList ∉ FileFormat.file)
      (hParse : parse s.toList = .error (.parse e)) :
      Loads path (.ok s.toUTF8) (.error (.failure (.parse e)))
  | unreadable
      (f : Files.Fault)
      (place : String) :
      Loads path (.error (.fault f place))
        (.error (.failure (.parse (.unreadableFile path))))
  | notText
      {bytes : ByteArray}
      (hBytes : ¬ bytes.IsValidUTF8) :
      Loads path (.ok bytes) (.error .notText)
  | zeroInPath :
      Loads path (.error .zeroInPath) (.error .zeroInPath)

/- A text is parsed as it stands, and read from a file alike. -/
theorem loads_text
    (path : String)
    (s : String) :
    Loads path (.ok s.toUTF8) (ofFile path (.ok s.toUTF8)) := by
  rw [ofFile_toUTF8]
  cases hParse : parse s.toList with
  | ok l =>
      exact .loaded
        ((exists_parse_iff s.toList).mp ⟨l, hParse⟩) hParse
  | error f =>
      rcases Grammar.grammar_failsBy s.toList f
          ((parse_eq_error_iff s.toList f).mp hParse) with
        ⟨e, _, rfl⟩
      refine .malformed ?_ hParse
      rw [← exists_parse_iff, hParse]
      intro hOk
      rcases hOk with ⟨l, hOk⟩
      cases hOk

/- Whatever is found at a path, it is read to one of these. -/
theorem loads_ofFile
    (path : String)
    (content : Except Files.AccessError ByteArray) :
    Loads path content (ofFile path content) := by
  cases content with
  | error e =>
      cases e with
      | fault f place => exact .unreadable f place
      | zeroInPath => exact .zeroInPath
  | ok bytes =>
      cases hDecode : String.fromUTF8? bytes with
      | none =>
          have hBytes :=
            (fromUTF8?_eq_none_iff bytes).mp hDecode
          rw [ofFile, ofBytes, hDecode]
          exact .notText hBytes
      | some s =>
          rw [← toUTF8_of_fromUTF8? hDecode]
          exact loads_text path s

end LSystem

end Lindenmayer
