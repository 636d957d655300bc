import Lindenmayer.Files.Tree

/-
  Access is denied because of a character of code zero only
  where the path has one, or the place it is seen from.

  Correctness is proven by:
    * `Files.hasZero_of_mem_names`
    * `Files.Tree.zero_of_makeDirectories`
    * `Files.Tree.zero_of_write`
-/

------------------------------------------------------------
-- Names
------------------------------------------------------------

namespace Lindenmayer

namespace Files

/- Splitting a text makes no characters. -/
theorem mem_of_mem_splitSlashes
    {cs part : List Char}
    {c : Char}
    (hPart :
      part ∈ (splitSlashes cs).1 :: (splitSlashes cs).2)
    (hMember : c ∈ part) :
    c ∈ cs := by
  induction cs generalizing part with
  | nil =>
      rw [splitSlashes, List.mem_singleton] at hPart
      rw [hPart] at hMember
      exact absurd hMember List.not_mem_nil
  | cons d cs ih =>
      rw [splitSlashes] at hPart
      split at hPart
      · rcases List.mem_cons.mp hPart with rfl | hPart
        · exact absurd hMember List.not_mem_nil
        · exact List.mem_cons_of_mem d (ih hPart hMember)
      · rcases List.mem_cons.mp hPart with rfl | hLater
        · rcases List.mem_cons.mp hMember with rfl | hMember
          · exact List.mem_cons_self
          · exact List.mem_cons_of_mem d
              (ih List.mem_cons_self hMember)
        · exact List.mem_cons_of_mem d
            (ih (List.mem_cons_of_mem _ hLater) hMember)

/- A zero in a name is one in the path. -/
theorem hasZero_of_mem_names
    {path name : String}
    (hName : name ∈ names path)
    (hZero : hasZero name = true) :
    hasZero path = true := by
  rcases List.mem_map.mp hName with ⟨part, hPart, rfl⟩
  rw [hasZero, List.contains_iff_mem, String.toList_ofList]
    at hZero
  rw [hasZero, List.contains_iff_mem]
  exact mem_of_mem_splitSlashes hPart hZero

/- Names are followed to locations made of them. -/
theorem mem_of_mem_follow
    {l : Location}
    {ns : List String}
    {n : String}
    (hMember : n ∈ follow l ns) :
    n ∈ l ∨ n ∈ ns := by
  induction ns generalizing l with
  | nil => exact .inl hMember
  | cons m ns ih =>
      rcases ih (l := step l m) hMember with hStep | hLater
      · rw [step] at hStep
        split at hStep
        · exact .inl hStep
        · split at hStep
          · exact .inl (List.dropLast_subset l hStep)
          · rcases List.mem_append.mp hStep with hOld | hNew
            · exact .inl hOld
            · rw [List.mem_singleton] at hNew
              exact .inr (hNew ▸ List.mem_cons_self)
      · exact .inr (List.mem_cons_of_mem m hLater)

theorem mem_of_mem_locate
    {place : Location}
    {path n : String}
    (hMember : n ∈ locate place path) :
    n ∈ place ∨ n ∈ names path := by
  rcases mem_of_mem_follow hMember with hOrigin | hName
  · rw [origin] at hOrigin
    split at hOrigin
    · exact absurd hOrigin List.not_mem_nil
    · exact .inl hOrigin
  · exact .inr hName

------------------------------------------------------------
-- Writing
------------------------------------------------------------

namespace Tree

/-
  A directory that is made or walked through is named by one
  of the names.
-/
theorem zero_of_makeDirectories
    {t u : Tree}
    {l : Location}
    {ns : List String}
    (hMake :
      t.makeDirectories l ns = (.error .zeroInPath, u)) :
    ∃ n ∈ ns, hasZero n = true := by
  induction ns generalizing t l with
  | nil => cases hMake
  | cons n ns ih =>
      simp only [makeDirectories] at hMake
      split at hMake
      · rcases ih hMake with ⟨m, hMember, hZero⟩
        exact ⟨m, List.mem_cons_of_mem n hMember, hZero⟩
      · cases ns with
        | nil => cases hMake
        | cons m ns =>
            rw [obstacle] at hMake
            split at hMake
            · rename_i hZero
              exact ⟨m, by simp, hZero⟩
            · cases hMake
      · split at hMake
        · rename_i hZero
          exact ⟨n, List.mem_cons_self, hZero⟩
        · split at hMake
          · cases hMake
          · rcases ih hMake with ⟨m, hMember, hZero⟩
            exact ⟨m, List.mem_cons_of_mem n hMember, hZero⟩

/- Writing is denied because of a zero where there is one. -/
theorem zero_of_write
    {t u : Tree}
    {path content : String}
    (hWrite :
      t.write path content = (.error .zeroInPath, u)) :
    hasZero path = true ∨
      ∃ n ∈ t.place, hasZero n = true := by
  rw [write] at hWrite
  split at hWrite
  · rw [writeFile] at hWrite
    split at hWrite
    · rename_i hZero
      exact .inl hZero
    · split at hWrite <;> cases hWrite
  · rename_i v hMake
    cases hWrite
    rcases zero_of_makeDirectories hMake with
      ⟨n, hMember, hZero⟩
    rcases mem_of_mem_locate
        (List.dropLast_subset _ hMember) with
      hPlace | hName
    · exact .inr ⟨n, hPlace, hZero⟩
    · exact .inl (hasZero_of_mem_names hName hZero)

end Tree

end Files

end Lindenmayer
