/-
**Sessions in headers.**

A session is written as its user name, a colon and its token. Reading the header value gives the
session again, colons in the name included, if the name begins with a character that is not blank:
blanks before a header value do not count, so they are lost from a name too.

* `Token.ofChars?_toChars`: a token is read back from its written form;
* `Session.IsPresentable`: the user name begins with a character that is not blank;
* `Session.ofHeader?_headerValue`: such a session is read back from its header value;
* `Session.isPresentable_of_ofHeader?`: no other session is read from any header value.
-/

import Gatehouse.Session.Basic
import Mathlib.Algebra.GroupWithZero.Nat
import Mathlib.Data.List.Basic

namespace Gatehouse

/-! ### Tokens -/

namespace Token

theorem digit?_digitChar (digit : Fin 16) : digit? (digitChar digit) = some digit := by
  revert digit
  decide

theorem digitChar_ne (digit : Fin 16) :
    digitChar digit ≠ '-' ∧ digitChar digit ≠ ':' ∧ Text.isBlank (digitChar digit) = false := by
  revert digit
  decide

theorem mapM_digit?_map (digits : List (Fin 16)) :
    (digits.map digitChar).mapM digit? = some digits := by
  induction digits with
  | nil => rfl
  | cons digit rest ih => simp [digit?_digitChar, ih]

theorem mapM_digit?_of_hyphen {text : List Char} (hyphen : '-' ∈ text) :
    text.mapM digit? = none := by
  induction text with
  | nil => cases hyphen
  | cons c rest ih =>
    rw [List.mapM_cons]
    rcases List.mem_cons.mp hyphen with rfl | later
    · rfl
    · rw [ih later]
      cases digit? c <;> rfl

theorem map_length_cut {lengths : List Nat} {text : List Char} (whole : text.length = lengths.sum) :
    (cut lengths text).map List.length = lengths := by
  induction lengths generalizing text with
  | nil => rfl
  | cons length lengths ih =>
    rw [List.sum_cons] at whole
    have rest : (text.drop length).length = lengths.sum := by simp; omega
    have first : (text.take length).length = length := by simp; omega
    rw [cut, List.map_cons, ih rest, first]

theorem flatten_cut {lengths : List Nat} {text : List Char} (whole : text.length = lengths.sum) :
    (cut lengths text).flatten = text := by
  induction lengths generalizing text with
  | nil => exact (List.eq_nil_of_length_eq_zero whole).symm
  | cons length lengths ih =>
    rw [List.sum_cons] at whole
    have rest : (text.drop length).length = lengths.sum := by simp; omega
    rw [cut, List.flatten_cons, ih rest, List.take_append_drop]

theorem joinHyphens_cons_cons (piece next : List Char) (rest : List (List Char)) :
    joinHyphens (piece :: next :: rest) = piece ++ '-' :: joinHyphens (next :: rest) := rfl

theorem mem_of_mem_joinHyphens {pieces : List (List Char)} {c : Char}
    (member : c ∈ joinHyphens pieces) : c = '-' ∨ c ∈ pieces.flatten := by
  induction pieces with
  | nil => cases member
  | cons piece rest ih =>
    cases rest with
    | nil => exact .inr (by simpa [joinHyphens] using member)
    | cons next rest =>
      rw [joinHyphens_cons_cons] at member
      rcases List.mem_append.mp member with here | there
      · exact .inr (List.mem_flatten_of_mem List.mem_cons_self here)
      · rcases List.mem_cons.mp there with hyphen | later
        · exact .inl hyphen
        · refine (ih later).imp_right fun inside => ?_
          rw [List.flatten_cons]
          exact List.mem_append_right _ inside

theorem splitAll_joinHyphens {pieces : List (List Char)} (nonempty : pieces ≠ [])
    (plain : ∀ piece ∈ pieces, '-' ∉ piece) : Text.splitAll '-' (joinHyphens pieces) = pieces := by
  induction pieces with
  | nil => exact (nonempty rfl).elim
  | cons piece rest ih =>
    have here := Text.splitAll_eq_singleton (plain piece List.mem_cons_self)
    cases rest with
    | nil => exact here
    | cons next rest =>
      have later := ih (List.cons_ne_nil _ _) fun other member =>
        plain other (List.mem_cons_of_mem _ member)
      rw [joinHyphens_cons_cons, Text.splitAll_append, here, later]
      rfl

section Written

variable (token : Token)

theorem length_digitChars :
    (token.digits.toList.map digitChar).length = groupLengths.sum := by simp [groupLengths]

theorem mem_toChars {c : Char} (member : c ∈ token.toChars) :
    c = '-' ∨ ∃ digit, c = digitChar digit := by
  refine (mem_of_mem_joinHyphens member).imp_right fun inside => ?_
  rw [flatten_cut token.length_digitChars] at inside
  obtain ⟨digit, _, same⟩ := List.mem_map.mp inside
  exact ⟨digit, same.symm⟩

theorem colon_not_mem_toChars : ':' ∉ token.toChars := by
  intro member
  rcases token.mem_toChars member with hyphen | ⟨digit, same⟩
  · cases hyphen
  · exact (digitChar_ne digit).2.1 same.symm

theorem isBlank_of_mem_toChars {c : Char} (member : c ∈ token.toChars) :
    Text.isBlank c = false := by
  rcases token.mem_toChars member with rfl | ⟨digit, rfl⟩
  · decide
  · exact (digitChar_ne digit).2.2

theorem ofDigits?_map : ofDigits? (token.digits.toList.map digitChar) = some token := by
  obtain ⟨⟨array, size⟩⟩ := token
  unfold ofDigits?
  rw [mapM_digit?_map]
  simp [size]

/-- The written form consists of five groups with hyphens between them. -/
theorem splitAll_toChars : Text.splitAll '-' token.toChars =
    cut groupLengths (token.digits.toList.map digitChar) := by
  have plain : ∀ piece ∈ cut groupLengths (token.digits.toList.map digitChar), '-' ∉ piece := by
    intro piece member hyphen
    have inside := List.mem_flatten_of_mem member hyphen
    rw [flatten_cut token.length_digitChars] at inside
    obtain ⟨digit, _, same⟩ := List.mem_map.mp inside
    exact (digitChar_ne digit).1 same
  exact splitAll_joinHyphens (by simp [groupLengths, cut]) plain

theorem ofGroups?_toChars : ofGroups? token.toChars = some token := by
  unfold ofGroups?
  rw [splitAll_toChars]
  simp only [map_length_cut token.length_digitChars, flatten_cut token.length_digitChars, if_true,
    ofDigits?_map]

/-- **A token is read back from its written form.** -/
theorem ofChars?_toChars : ofChars? token.toChars = some token := by
  have hyphenated : '-' ∈ token.toChars := by
    show '-' ∈ List.take 8 _ ++ '-' :: _
    exact List.mem_append_right _ List.mem_cons_self
  have undivided : ofDigits? token.toChars = none := by
    unfold ofDigits?
    rw [mapM_digit?_of_hyphen hyphenated]
  unfold ofChars?
  rw [undivided, ofGroups?_toChars]
  rfl

end Written

end Token

/-! ### Sessions -/

namespace Session

/-- The user name begins with a character that is not blank. -/
def IsPresentable (session : Session) : Prop :=
  ∃ c ∈ session.username.toList.head?, Text.isBlank c = false

theorem trimmed_toChars {session : Session} (presentable : session.IsPresentable) :
    Text.Trimmed session.toChars := by
  obtain ⟨c, first, plain⟩ := presentable
  obtain ⟨rest, name⟩ := List.head?_eq_some_iff.mp first
  constructor
  · intro other member
    rw [toChars, name] at member
    cases member
    exact plain
  · intro other member
    have last : other ∈ ':' :: session.token.toChars := by
      have nonempty : ':' :: session.token.toChars ≠ [] := List.cons_ne_nil _ _
      rw [toChars, List.getLast?_append_of_ne_nil _ nonempty] at member
      exact List.mem_of_getLast? member
    rcases List.mem_cons.mp last with rfl | inside
    · decide
    · exact session.token.isBlank_of_mem_toChars inside

/-- **A presentable session is read back from its header value.** -/
theorem ofHeader?_headerValue {session : Session} (presentable : session.IsPresentable) :
    ofHeader? session.headerValue = some session := by
  have split : Text.splitLast? ':' session.toChars =
      some (session.username.toList, session.token.toChars) :=
    Text.splitLast?_eq_some_iff.mpr ⟨rfl, session.token.colon_not_mem_toChars⟩
  have named : session.username.toList.isEmpty = false := by
    obtain ⟨c, first, _⟩ := presentable
    obtain ⟨rest, name⟩ := List.head?_eq_some_iff.mp first
    rw [name]
    rfl
  unfold ofHeader? headerValue
  rw [String.toList_ofList, Text.trim_of_trimmed (trimmed_toChars presentable), split]
  simp [named, Token.ofChars?_toChars]

/-- Every session that is read from a header value is presentable. -/
theorem isPresentable_of_ofHeader? {value : String} {session : Session}
    (read : ofHeader? value = some session) : session.IsPresentable := by
  unfold ofHeader? at read
  split at read
  · cases read
  · next username token split =>
    obtain ⟨whole, _⟩ := Text.splitLast?_eq_some_iff.mp split
    cases username with
    | nil => cases read
    | cons c rest =>
      obtain ⟨_, _, rfl⟩ := Option.map_eq_some_iff.mp read
      have front := (Text.trimmed_of_trim value.toList).1
      rw [whole] at front
      refine ⟨c, ?_, front c rfl⟩
      show c ∈ (String.ofList (c :: rest)).toList.head?
      rw [String.toList_ofList]
      rfl

/-- A session is read back from its header value exactly if it is presentable. -/
theorem ofHeader?_headerValue_iff {session : Session} :
    ofHeader? session.headerValue = some session ↔ session.IsPresentable :=
  ⟨isPresentable_of_ofHeader?, ofHeader?_headerValue⟩

end Session

end Gatehouse
