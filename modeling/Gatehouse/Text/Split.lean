/-
**Splitting and joining texts.**

Cutting a text at one character: at every occurrence, at the first and at the last; and at a mark of
several characters.

* `join_splitAll`: the pieces joined by the character are the text;
* `splitAll_append`: text on both sides of the character is cut there;
* `splitFirst?_eq_some_iff`, `splitLast?_eq_some_iff`: where a text is cut;
* `commaList_append`: the members of two lists written as one.
-/

import Gatehouse.Text.Blank

namespace Gatehouse.Text

/-- The pieces between the occurrences of a character; always at least one. -/
def splitAll (separator : Char) : List Char → List (List Char)
  | [] => [[]]
  | c :: rest =>
    if c = separator then [] :: splitAll separator rest
    else match splitAll separator rest with
      | [] => [[c]]
      | piece :: pieces => (c :: piece) :: pieces

/-- What stands before and after the first occurrence of a character. -/
def splitFirst? (separator : Char) : List Char → Option (List Char × List Char)
  | [] => none
  | c :: rest =>
    if c = separator then some ([], rest)
    else (splitFirst? separator rest).map fun (before, after) => (c :: before, after)

/-- What stands before and after the last occurrence of a character. -/
def splitLast? (separator : Char) : List Char → Option (List Char × List Char)
  | [] => none
  | c :: rest =>
    match splitLast? separator rest with
    | some (before, after) => some (c :: before, after)
    | none => if c = separator then some ([], rest) else none

/-- The text that follows a given beginning. -/
def dropPrefix? : List Char → List Char → Option (List Char)
  | [], text => some text
  | _ :: _, [] => none
  | p :: expected, c :: text => if p = c then dropPrefix? expected text else none

/-- What stands before and after the first occurrence of a text. -/
def cutAt? (mark : List Char) : List Char → Option (List Char × List Char)
  | [] => if mark.isEmpty then some ([], []) else none
  | c :: rest =>
    match dropPrefix? mark (c :: rest) with
    | some after => some ([], after)
    | none => (cutAt? mark rest).map fun (before, after) => (c :: before, after)

/-! ### Laws -/

theorem splitAll_ne_nil (separator : Char) (text : List Char) : splitAll separator text ≠ [] := by
  cases text with
  | nil => simp [splitAll]
  | cons c rest =>
    simp only [splitAll]
    split
    · simp
    · split <;> simp

theorem join_splitAll (separator : Char) (text : List Char) :
    [separator].intercalate (splitAll separator text) = text := by
  induction text with
  | nil => simp [splitAll]
  | cons c rest ih =>
    simp only [splitAll]
    split
    · next same =>
      subst same
      obtain ⟨piece, pieces, shape⟩ := List.exists_cons_of_ne_nil (splitAll_ne_nil c rest)
      rw [shape] at ih ⊢
      simp only [List.intercalate, List.intersperse_cons_cons, List.flatten_cons] at ih ⊢
      simp [ih]
    · split
      · next empty => exact (splitAll_ne_nil separator rest empty).elim
      · next piece pieces shape =>
        rw [shape] at ih
        cases pieces with
        | nil => simp_all [List.intercalate]
        | cons next others =>
          simp only [List.intercalate, List.intersperse_cons_cons, List.flatten_cons] at ih ⊢
          simp [← ih]

theorem splitAll_append (separator : Char) (before after : List Char) :
    splitAll separator (before ++ separator :: after) =
      splitAll separator before ++ splitAll separator after := by
  induction before with
  | nil => simp [splitAll]
  | cons c rest ih =>
    rw [List.cons_append, splitAll, splitAll, ih]
    by_cases same : c = separator
    · rw [if_pos same, if_pos same, List.cons_append]
    · rw [if_neg same, if_neg same]
      obtain ⟨piece, pieces, shape⟩ := List.exists_cons_of_ne_nil (splitAll_ne_nil separator rest)
      rw [shape]
      rfl

theorem splitAll_eq_singleton {separator : Char} {text : List Char} (absent : separator ∉ text) :
    splitAll separator text = [text] := by
  induction text with
  | nil => rfl
  | cons c rest ih =>
    obtain ⟨different, later⟩ := List.ne_and_not_mem_of_not_mem_cons absent
    rw [splitAll, if_neg (Ne.symm different), ih later]

theorem not_mem_of_mem_splitAll {separator : Char} {text piece : List Char}
    (member : piece ∈ splitAll separator text) : separator ∉ piece := by
  induction text generalizing piece with
  | nil => rw [List.mem_singleton.mp member]; exact List.not_mem_nil
  | cons c rest ih =>
    rw [splitAll] at member
    by_cases same : c = separator
    · rw [if_pos same] at member
      rcases List.mem_cons.mp member with rfl | later
      · exact List.not_mem_nil
      · exact ih later
    · rw [if_neg same] at member
      obtain ⟨first, pieces, shape⟩ := List.exists_cons_of_ne_nil (splitAll_ne_nil separator rest)
      rw [shape] at member ih
      rcases List.mem_cons.mp member with rfl | later
      · intro inside
        rcases List.mem_cons.mp inside with here | there
        · exact same here.symm
        · exact ih List.mem_cons_self there
      · exact ih (List.mem_cons_of_mem _ later)

theorem splitFirst?_eq_some_iff {separator : Char} {text before after : List Char} :
    splitFirst? separator text = some (before, after) ↔
      text = before ++ separator :: after ∧ separator ∉ before := by
  induction text generalizing before with
  | nil => simp [splitFirst?]
  | cons c rest ih =>
    simp only [splitFirst?]
    split
    · next same =>
      subst same
      cases before with
      | nil => simp
      | cons b before =>
        simp only [Option.some.injEq, Prod.mk.injEq, List.cons_append, List.cons.injEq,
          List.mem_cons, not_or]
        constructor
        · rintro ⟨impossible, _⟩; cases impossible
        · rintro ⟨⟨same, _⟩, different, _⟩; exact (different same).elim
    · next different =>
      rw [Option.map_eq_some_iff]
      cases before with
      | nil =>
        simp only [List.nil_append, List.cons.injEq, List.not_mem_nil, not_false_eq_true,
          and_true]
        constructor
        · rintro ⟨⟨_, _⟩, _, impossible⟩; cases impossible
        · rintro ⟨same, _⟩; exact (different same).elim
      | cons b before =>
        constructor
        · rintro ⟨⟨before', after'⟩, found, same⟩
          cases same
          obtain ⟨rfl, absent⟩ := ih.mp found
          exact ⟨rfl, by simp [absent, Ne.symm different]⟩
        · rintro ⟨whole, absent⟩
          cases whole
          exact ⟨(before, after),
            ih.mpr ⟨rfl, fun inside => absent (List.mem_cons_of_mem _ inside)⟩,
            rfl⟩

theorem splitLast?_eq_none_iff {separator : Char} {text : List Char} :
    splitLast? separator text = none ↔ separator ∉ text := by
  induction text with
  | nil => simp [splitLast?]
  | cons c rest ih =>
    simp only [splitLast?]
    cases found : splitLast? separator rest with
    | some parts =>
      have inside : separator ∈ rest := by
        refine Decidable.byContradiction fun absent => ?_
        rw [ih.mpr absent] at found
        cases found
      simp [inside]
    | none =>
      have absent := ih.mp found
      by_cases same : c = separator
      · simp [same]
      · simp [same, absent, Ne.symm same]

theorem splitLast?_eq_some_iff {separator : Char} {text before after : List Char} :
    splitLast? separator text = some (before, after) ↔
      text = before ++ separator :: after ∧ separator ∉ after := by
  induction text generalizing before with
  | nil => simp [splitLast?]
  | cons c rest ih =>
    simp only [splitLast?]
    cases found : splitLast? separator rest with
    | some parts =>
      obtain ⟨before', after'⟩ := parts
      simp only [Option.some.injEq, Prod.mk.injEq]
      constructor
      · rintro ⟨rfl, rfl⟩
        obtain ⟨rfl, absent⟩ := ih.mp found
        exact ⟨rfl, absent⟩
      · rintro ⟨whole, absent⟩
        cases before with
        | nil =>
          cases whole
          rw [splitLast?_eq_none_iff.mpr absent] at found
          cases found
        | cons b before =>
          cases whole
          have same := ih.mpr ⟨rfl, absent⟩
          rw [found] at same
          cases same
          exact ⟨rfl, rfl⟩
    | none =>
      have absent := splitLast?_eq_none_iff.mp found
      by_cases same : c = separator
      · subst same
        simp only [if_true, Option.some.injEq, Prod.mk.injEq]
        constructor
        · rintro ⟨rfl, rfl⟩; exact ⟨rfl, absent⟩
        · rintro ⟨whole, _⟩
          cases before with
          | nil => cases whole; exact ⟨rfl, rfl⟩
          | cons b before => cases whole; simp at absent
      · simp only [same, if_false]
        constructor
        · intro impossible; cases impossible
        · rintro ⟨whole, _⟩
          cases before with
          | nil => cases whole; exact (same rfl).elim
          | cons b before => cases whole; simp at absent

theorem dropPrefix?_eq_some_iff {expected text rest : List Char} :
    dropPrefix? expected text = some rest ↔ text = expected ++ rest := by
  induction expected generalizing text with
  | nil => simp [dropPrefix?]
  | cons p expected ih =>
    cases text with
    | nil => simp [dropPrefix?]
    | cons c text =>
      simp only [dropPrefix?]
      split
      · next same => subst same; simp [ih]
      · next different => simp [Ne.symm different]

/-! ### Comma-separated lists -/

/-- The trimmed, non-empty members of a list separated by commas. -/
def commaList (text : String) : List String :=
  ((splitAll ',' text.toList).map trimBoth).filterMap fun piece =>
    if piece.isEmpty then none else some (String.ofList piece)

theorem map_trimBoth_splitAll_space (text : List Char) :
    (splitAll ',' (' ' :: text)).map trimBoth = (splitAll ',' text).map trimBoth := by
  obtain ⟨piece, pieces, shape⟩ := List.exists_cons_of_ne_nil (splitAll_ne_nil ',' text)
  rw [splitAll, if_neg (by decide), shape]
  rfl

/-- Of two lists with a comma and a space between them, the members are those of both. -/
theorem commaList_append (before after : String) :
    commaList (before ++ ", " ++ after) = commaList before ++ commaList after := by
  have whole : (before ++ ", " ++ after).toList = before.toList ++ ',' :: ' ' :: after.toList := by
    simp
  unfold commaList
  rw [whole, splitAll_append, List.map_append, map_trimBoth_splitAll_space, List.filterMap_append]

/-- Members joined by a comma and a space. -/
def joinComma (members : List String) : String := ", ".intercalate members

/-- ASCII capitals become small letters; every other character stays. -/
def lowerAscii (text : String) : String := String.ofList (text.toList.map Char.toLower)

/-- ASCII small letters become capitals; every other character stays. -/
def upperAscii (text : String) : String := String.ofList (text.toList.map Char.toUpper)

end Gatehouse.Text
