import Lindenmayer.Proofs.Markup.Escaping

/-
  A reader of markup, and what it reads of written pieces.

  Tags stand between angle brackets, values between quotes.
  The reader refuses all that is not in this form, so that
  what it reads is what is written: a bracket or a quote that
  stands elsewhere is never passed over.

  Key definitions include:
    * `Markup.isName`
    * `Markup.readAttributes`
    * `Markup.readTag`
    * `Markup.read`
    * `Markup.Tagged`

  Correctness is proven by:
    * `Markup.readAttributes_writeAll`
    * `Markup.readTag_inside`
    * `Markup.read_writePieces`
-/

------------------------------------------------------------
-- Reading
------------------------------------------------------------

namespace Lindenmayer

namespace Markup

/- Names are made of letters and dashes. -/
def isName
    (cs : List Char) : Bool :=
  !cs.isEmpty && cs.all fun c => c.isAlpha || c == '-'

/- The name in front of a value: a space, and an equals sign. -/
def readKey : List Char → Option String
  | ' ' :: cs =>
      match cs.splitOn '=' with
      | [name, []] =>
          if isName name then some (String.ofList name)
          else none
      | _ => none
  | _ => none

/-
  The attributes of a tag that is split at its quotes, so that
  names and values take turns, and what is left after them.
-/
def readAttributes :
    List (List Char) → Option (List Attribute × List Char)
  | [] => none
  | [left] => some ([], left)
  | key :: value :: parts => do
      let name ← readKey key
      let value ← unescape value
      let (as, left) ← readAttributes parts
      some (⟨name, String.ofList value⟩ :: as, left)

/- The tag with a name, attributes and what is left. -/
def tagOf
    (name : List Char)
    (as : List Attribute)
    (left : List Char) : Option Piece :=
  if name = "?xml".toList ∧ left = ['?'] then
    some (.declaration as)
  else if isName name ∧ left = [] then
    some (.opening (String.ofList name) as)
  else if isName name ∧ left = [' ', '/'] then
    some (.alone (String.ofList name) as)
  else if
    name.head? = some '/' ∧ isName name.tail ∧ as = [] ∧
      left = []
  then
    some (.closing (String.ofList name.tail))
  else none

/- A tag is read from what stands between the brackets. -/
def readTag
    (cs : List Char) : Option Piece := do
  let (as, left) ←
    readAttributes
      ((cs.dropWhile (· != ' ')).splitOn '"')
  tagOf (cs.takeWhile (· != ' ')) as left

/- A text is a piece unless it is empty. -/
def readText
    (cs : List Char) : Option (List Piece) :=
  if cs.isEmpty then some []
  else (unescape cs).map fun t => [.text (String.ofList t)]

/-
  The pieces of a markup that is split at the ends of its
  tags.  Each part is a text up to where a tag begins, and the
  tag; the last part is a text alone.
-/
def readParts : List (List Char) → Option (List Piece)
  | [] => none
  | [last] => if '<' ∈ last then none else readText last
  | part :: parts =>
      match part.splitOn '<' with
      | [text, tag] => do
          let before ← readText text
          let piece ← readTag tag
          let after ← readParts parts
          some (before ++ piece :: after)
      | _ => none

/- Read the pieces of a markup. -/
def read
    (markup : String) : Option (List Piece) :=
  readParts (markup.toList.splitOn '>')

------------------------------------------------------------
-- Names and Attributes
------------------------------------------------------------

theorem not_mem_of_isName
    {cs : List Char}
    (hName : isName cs = true)
    (c : Char)
    (hOther : (c.isAlpha || c == '-') = false) :
    c ∉ cs := by
  intro hMember
  rw [isName, Bool.and_eq_true, List.all_eq_true] at hName
  have hLetter := hName.2 c hMember
  rw [hOther] at hLetter
  cases hLetter

/- A name in front of a value is read. -/
theorem readKey_name
    {name : String}
    (hName : isName name.toList = true) :
    readKey (' ' :: (name.toList ++ ['='])) = some name := by
  have hSplit :
      (name.toList ++ ['=']).splitOn '=' =
        [name.toList, []] :=
    List.splitOn_append_cons_self_of_not_mem
      (not_mem_of_isName hName '=' (by decide)) []
  simp only [readKey, hSplit, hName, if_true,
    String.ofList_toList]

/- A name in front of a value, as it is written. -/
def Attribute.key
    (a : Attribute) : List Char :=
  ' ' :: (a.name.toList ++ ['='])

/- The first attribute of a tag as characters. -/
theorem toList_writeAll_cons
    (a : Attribute)
    (as : List Attribute) :
    (Attribute.writeAll (a :: as)).toList =
      a.key ++
        '"' :: (escapeChars a.value.toList ++
          '"' :: (Attribute.writeAll as).toList) := by
  simp [Attribute.writeAll, Attribute.write, Attribute.key,
    escape]

/-
  Attributes are read back: their values have no quote, and so
  every other part is the value of the name before it.
-/
theorem readAttributes_writeAll
    {as : List Attribute}
    (hNames : as.all (fun a => isName a.name.toList) = true)
    {left : List Char}
    (hLeft : '"' ∉ left) :
    readAttributes
        (((Attribute.writeAll as).toList ++ left).splitOn
          '"') =
      some (as, left) := by
  induction as with
  | nil =>
      change readAttributes (left.splitOn '"') = _
      rw [List.splitOn_eq_singleton hLeft]
      rfl
  | cons a as ih =>
      rw [List.all_cons, Bool.and_eq_true] at hNames
      have hKey : '"' ∉ a.key := by
        have hName :=
          not_mem_of_isName hNames.1 '"' (by decide)
        simp [Attribute.key, hName]
      have hValue := (not_mem_escapeChars a.value.toList).2.2
      rw [toList_writeAll_cons, List.append_assoc,
        List.cons_append, List.append_assoc, List.cons_append,
        List.splitOn_append_cons_self_of_not_mem hKey,
        List.splitOn_append_cons_self_of_not_mem hValue,
        readAttributes]
      simp only [Attribute.key, readKey_name hNames.1,
        unescape_escapeChars, ih hNames.2, Option.bind_eq_bind,
        Option.bind_some, String.ofList_toList]

------------------------------------------------------------
-- Tags
------------------------------------------------------------

/- Whether a piece is a tag with proper names. -/
@[simp] def Piece.isTag : Piece → Bool
  | .declaration as =>
      !as.isEmpty && as.all fun a => isName a.name.toList
  | .opening name as =>
      isName name.toList &&
        as.all fun a => isName a.name.toList
  | .alone name as =>
      isName name.toList &&
        as.all fun a => isName a.name.toList
  | .closing name => isName name.toList
  | .text _ => false

/- What is written of a tag between its brackets. -/
def Piece.inside : Piece → List Char
  | .declaration as =>
      "?xml".toList ++ ((Attribute.writeAll as).toList ++ ['?'])
  | .opening name as =>
      name.toList ++ ((Attribute.writeAll as).toList ++ [])
  | .alone name as =>
      name.toList ++
        ((Attribute.writeAll as).toList ++ [' ', '/'])
  | .closing name => '/' :: name.toList ++ []
  | .text _ => []

/- A tag is written between brackets. -/
theorem Piece.toList_write
    {p : Piece}
    (hTag : p.isTag = true) :
    p.write.toList = '<' :: (p.inside ++ ['>']) := by
  cases p with
  | text s => cases hTag
  | declaration as => simp [write, inside]
  | opening name as => simp [write, inside]
  | alone name as => simp [write, inside]
  | closing name => simp [write, inside]

/- A word ends where a space follows it, or nothing. -/
theorem takeWhile_append_of_space
    {name rest : List Char}
    (hName : ' ' ∉ name)
    (hRest : ∀ c ∈ rest.head?, c = ' ') :
    (name ++ rest).takeWhile (· != ' ') = name ∧
      (name ++ rest).dropWhile (· != ' ') = rest := by
  have hAll : ∀ c ∈ name, (c != ' ') = true := by
    intro c hMember
    rw [bne_iff_ne]
    rintro rfl
    exact hName hMember
  rw [List.takeWhile_append_of_pos hAll,
    List.dropWhile_append_of_pos hAll]
  cases rest with
  | nil => simp
  | cons c rest => simp [hRest c rfl]

theorem head?_writeAll_append
    (as : List Attribute)
    (hSome : as ≠ [])
    (left : List Char) :
    ((Attribute.writeAll as).toList ++ left).head? =
      some ' ' := by
  cases as with
  | nil => exact absurd rfl hSome
  | cons a as =>
      rw [toList_writeAll_cons]
      rfl

/-
  A name and attributes, with something left after them, are
  taken apart again.
-/
theorem readTag_append
    {name : List Char}
    (hName : ' ' ∉ name)
    {as : List Attribute}
    (hNames : as.all (fun a => isName a.name.toList) = true)
    {left : List Char}
    (hLeft : '"' ∉ left)
    (hSpace : as = [] → ∀ c ∈ left.head?, c = ' ') :
    readTag
        (name ++ ((Attribute.writeAll as).toList ++ left)) =
      tagOf name as left := by
  have hRest :
      ∀ c ∈ ((Attribute.writeAll as).toList ++ left).head?,
        c = ' ' := by
    by_cases hSome : as = []
    · rw [hSome]
      exact hSpace hSome
    · rw [head?_writeAll_append as hSome]
      intro c hHead
      exact (Option.some.inj hHead).symm
  rcases takeWhile_append_of_space hName hRest with
    ⟨hTake, hDrop⟩
  rw [readTag, hTake, hDrop,
    readAttributes_writeAll hNames hLeft]
  rfl

/- A tag is read back from what is written of it. -/
theorem readTag_inside
    {p : Piece}
    (hTag : p.isTag = true) :
    readTag p.inside = some p := by
  cases p with
  | text s => cases hTag
  | declaration as =>
      rw [Piece.isTag, Bool.and_eq_true] at hTag
      rw [Piece.inside, readTag_append (by decide) hTag.2
        (by decide) (by rintro rfl; cases hTag.1)]
      rfl
  | opening name as =>
      rw [Piece.isTag, Bool.and_eq_true] at hTag
      have hSpace :=
        not_mem_of_isName hTag.1 ' ' (by decide)
      rw [Piece.inside, readTag_append hSpace hTag.2
        (by decide) (by simp)]
      simp [tagOf, hTag.1]
  | alone name as =>
      rw [Piece.isTag, Bool.and_eq_true] at hTag
      have hSpace :=
        not_mem_of_isName hTag.1 ' ' (by decide)
      rw [Piece.inside, readTag_append hSpace hTag.2
        (by decide) (by simp)]
      simp [tagOf, hTag.1]
  | closing name =>
      have hSpace := not_mem_of_isName hTag ' ' (by decide)
      have hSlash : isName ('/' :: name.toList) = false := by
        simp [isName]
      have hRead :
          readTag
              ('/' :: name.toList ++
                ((Attribute.writeAll []).toList ++ [])) =
            tagOf ('/' :: name.toList) [] [] :=
        readTag_append (by simp [hSpace]) rfl (by decide)
          (by simp)
      rw [Piece.inside]
      refine Eq.trans hRead ?_
      rw [Piece.isTag] at hTag
      simp [tagOf, hSlash, hTag]

------------------------------------------------------------
-- Documents
------------------------------------------------------------

theorem not_mem_writeAll
    {as : List Attribute}
    (hNames : as.all (fun a => isName a.name.toList) = true)
    {c : Char}
    (hBracket : c = '<' ∨ c = '>') :
    c ∉ (Attribute.writeAll as).toList := by
  induction as with
  | nil => exact List.not_mem_nil
  | cons a as ih =>
      rw [List.all_cons, Bool.and_eq_true] at hNames
      have hLater := ih hNames.2
      have hEscaped := not_mem_escapeChars a.value.toList
      have hName :=
        not_mem_of_isName hNames.1 c
          (by rcases hBracket with rfl | rfl <;> decide)
      rw [toList_writeAll_cons]
      rcases hBracket with rfl | rfl <;>
        simp [Attribute.key, hName, hEscaped, hLater]

/- No bracket stands within a tag. -/
theorem Piece.not_mem_inside
    {p : Piece}
    (hTag : p.isTag = true)
    {c : Char}
    (hBracket : c = '<' ∨ c = '>') :
    c ∉ p.inside := by
  have hOther : (c.isAlpha || c == '-') = false := by
    rcases hBracket with rfl | rfl <;> decide
  cases p with
  | text s => cases hTag
  | declaration as =>
      rw [isTag, Bool.and_eq_true] at hTag
      have hAll := not_mem_writeAll hTag.2 hBracket
      rcases hBracket with rfl | rfl <;> simp [inside, hAll]
  | opening name as =>
      rw [isTag, Bool.and_eq_true] at hTag
      have hName := not_mem_of_isName hTag.1 c hOther
      have hAll := not_mem_writeAll hTag.2 hBracket
      simp [inside, hName, hAll]
  | alone name as =>
      rw [isTag, Bool.and_eq_true] at hTag
      have hName := not_mem_of_isName hTag.1 c hOther
      have hAll := not_mem_writeAll hTag.2 hBracket
      rcases hBracket with rfl | rfl <;>
        simp [inside, hName, hAll]
  | closing name =>
      have hName := not_mem_of_isName hTag c hOther
      rcases hBracket with rfl | rfl <;> simp [inside, hName]

/- Some pieces as they are written one after the other. -/
def writePieces
    (ps : List Piece) : String :=
  String.join (ps.map Piece.write)

/-
  Pieces in which a tag follows each text.  No text is empty,
  so that there is no other way to write them.
-/
inductive Tagged : List Piece → Prop where
  | nil : Tagged []
  | tag
      {p : Piece}
      {ps : List Piece}
      (hTag : p.isTag = true)
      (hLater : Tagged ps) :
      Tagged (p :: ps)
  | textTag
      {s : String}
      {p : Piece}
      {ps : List Piece}
      (hText : s ≠ "")
      (hTag : p.isTag = true)
      (hLater : Tagged ps) :
      Tagged (.text s :: p :: ps)

theorem Tagged.append
    {ps qs : List Piece}
    (hFirst : Tagged ps)
    (hSecond : Tagged qs) :
    Tagged (ps ++ qs) := by
  induction hFirst with
  | nil => exact hSecond
  | tag hTag hLater ih => exact .tag hTag ih
  | textTag hText hTag hLater ih =>
      exact .textTag hText hTag ih

/- An escaped text is read, unless it is empty. -/
theorem readText_escapeChars
    {s : String}
    (hText : s ≠ "") :
    readText (escapeChars s.toList) = some [.text s] := by
  have hNotEmpty : (escapeChars s.toList).isEmpty = false := by
    rw [escapeChars_eq_flatMap]
    cases hChars : s.toList with
    | nil =>
        exact absurd (String.toList_eq_nil_iff.mp hChars) hText
    | cons c cs =>
        rw [List.flatMap_cons]
        unfold entity
        split <;> rfl
  rw [readText, hNotEmpty, unescape_escapeChars]
  simp

/-
  A part that ends with the first tag is read, the text before
  the tag and the tag, when the rest is.
-/
theorem readParts_writePieces
    {cs : List Char}
    {before : List Piece}
    (hBefore : readText cs = some before)
    (hBrackets : '<' ∉ cs ∧ '>' ∉ cs)
    {p : Piece}
    (hTag : p.isTag = true)
    {ps : List Piece}
    (hLater : read (writePieces ps) = some ps) :
    readParts
        ((cs ++ (writePieces (p :: ps)).toList).splitOn '>') =
      some (before ++ p :: ps) := by
  have hPart : '>' ∉ cs ++ '<' :: p.inside := by
    have hInside := Piece.not_mem_inside hTag (.inr rfl)
    simp [hBrackets.2, hInside]
  have hWritten :
      cs ++ (writePieces (p :: ps)).toList =
        (cs ++ '<' :: p.inside) ++
          '>' :: (writePieces ps).toList := by
    simp [writePieces, Piece.toList_write hTag]
  have hSplit :
      (cs ++ '<' :: p.inside).splitOn '<' = [cs, p.inside] := by
    rw [List.splitOn_append_cons_self_of_not_mem hBrackets.1,
      List.splitOn_eq_singleton
        (Piece.not_mem_inside hTag (.inl rfl))]
  have hSome :
      (writePieces ps).toList.splitOn '>' ≠ [] :=
    List.splitOnP_ne_nil _ _
  rw [read] at hLater
  rw [hWritten, List.splitOn_append_cons_self_of_not_mem hPart,
    readParts.eq_3 _ _ hSome, hSplit]
  simp only [hBefore, readTag_inside hTag, hLater,
    Option.bind_eq_bind, Option.bind_some]

/-
  Pieces are read back from what is written of them.  The
  induction takes off a tag with the text before it, which is
  the first part of the split markup.
-/
theorem read_writePieces
    {ps : List Piece}
    (hTagged : Tagged ps)
    {last : String}
    (hLast : last ≠ "") :
    read (writePieces (ps ++ [.text last])) =
      some (ps ++ [.text last]) := by
  induction hTagged with
  | nil =>
      have hBrackets := not_mem_escapeChars last.toList
      have hWritten :
          (writePieces [.text last]).toList =
            escapeChars last.toList := by
        simp [writePieces, Piece.write, escape]
      rw [List.nil_append, read, hWritten,
        List.splitOn_eq_singleton hBrackets.2.1, readParts,
        if_neg hBrackets.1, readText_escapeChars hLast]
  | tag hTag hLater ih =>
      have hNoText : readText [] = some [] := rfl
      exact readParts_writePieces hNoText
        ⟨List.not_mem_nil, List.not_mem_nil⟩ hTag ih
  | textTag hText hTag hLater ih =>
      rename_i s p ps
      have hBrackets := not_mem_escapeChars s.toList
      rw [List.cons_append, List.cons_append]
      generalize ps ++ [.text last] = rest at ih ⊢
      have hWritten :
          (writePieces (.text s :: p :: rest)).toList =
            escapeChars s.toList ++
              (writePieces (p :: rest)).toList := by
        simp [writePieces, Piece.write, escape]
      rw [read, hWritten,
        readParts_writePieces (readText_escapeChars hText)
          ⟨hBrackets.1, hBrackets.2.1⟩ hTag ih]
      rfl

end Markup

end Lindenmayer
