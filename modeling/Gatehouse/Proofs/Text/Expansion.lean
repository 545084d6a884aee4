/-
**Texts with placeholders.**

A text is cut, from left to right, into placeholders and the characters between them: a character is
copied only where no placeholder begins. There is one such cut, it does not depend on any variable,
and an expansion replaces its pieces one by one. So what is put in is never read again.

* `Placeholder.Proper`: the placeholders that a text may hold; `Placeholder.read?_eq_some_iff`;
* `Piece`, `Cut`: a text cut at its placeholders; `Cut.unique`, `exists_cut`;
* `Piece.Becomes`: what a piece is replaced by;
* **`expand_of_cut`**: expanding a text.
-/

import Gatehouse.Text.Placeholder
import Mathlib.Data.List.Forall2

namespace Gatehouse.Text

/-! ### Placeholders -/

namespace Placeholder

/-- A placeholder that a text may hold: its name is a capital letter or an underscore with further
ones and digits behind it, and its default is not empty and has no closing brace. -/
structure Proper (placeholder : Placeholder) : Prop where
  name : ∃ first more, placeholder.name = first :: more ∧ isNameStart first = true ∧
    ∀ c ∈ more, isNameChar c = true
  default : ∀ default, placeholder.default = some default → default ≠ [] ∧ '}' ∉ default

/-- What stands behind the name of a placeholder. -/
def ending : Option (List Char) → List Char
  | none => ['}']
  | some default => ':' :: '-' :: default ++ ['}']

theorem toChars_eq (placeholder : Placeholder) :
    placeholder.toChars = '$' :: '{' :: placeholder.name ++ ending placeholder.default := by
  unfold toChars ending
  cases placeholder.default <;> simp

theorem toChars_ne_nil (placeholder : Placeholder) : placeholder.toChars ≠ [] := by
  rw [toChars_eq]
  exact List.cons_ne_nil _ _

theorem readDefault?_eq_some_iff {name text rest : List Char} {placeholder : Placeholder} :
    readDefault? name text = some (placeholder, rest) ↔
      placeholder.name = name ∧
        (∀ default, placeholder.default = some default → default ≠ [] ∧ '}' ∉ default) ∧
        text = ending placeholder.default ++ rest := by
  constructor
  · intro read
    unfold readDefault? at read
    split at read
    · cases read
      exact ⟨rfl, by rintro _ ⟨⟩, rfl⟩
    · split at read
      · next default after found =>
        obtain ⟨rfl, closed⟩ := splitFirst?_eq_some_iff.mp found
        split at read
        · cases read
        · next given =>
          cases read
          refine ⟨rfl, fun _ same => ?_, by simp [ending]⟩
          cases same
          exact ⟨fun empty => given (by rw [empty]; rfl), closed⟩
      · cases read
    · cases read
  · rintro ⟨rfl, proper, rfl⟩
    obtain ⟨name, default⟩ := placeholder
    cases default with
    | none => rfl
    | some default =>
      obtain ⟨given, closed⟩ := proper default rfl
      have found : splitFirst? '}' (default ++ '}' :: rest) = some (default, rest) :=
        splitFirst?_eq_some_iff.mpr ⟨rfl, closed⟩
      have text : ending (some default) ++ rest = ':' :: '-' :: (default ++ '}' :: rest) := by
        simp [ending]
      rw [text, readDefault?, found]
      simp [given]

/-- Names end where the ending begins. -/
theorem span_name {more : List Char} (named : ∀ c ∈ more, isNameChar c = true)
    (default : Option (List Char)) (rest : List Char) :
    (more ++ (ending default ++ rest)).takeWhile isNameChar = more ∧
      (more ++ (ending default ++ rest)).dropWhile isNameChar = ending default ++ rest := by
  rw [List.takeWhile_append_of_pos named, List.dropWhile_append_of_pos named]
  cases default with
  | none => exact ⟨List.append_nil more, rfl⟩
  | some default => exact ⟨List.append_nil more, rfl⟩

/-- **The placeholder at the front of a text** is the proper one with whose written form the text
begins. -/
theorem read?_eq_some_iff {text rest : List Char} {placeholder : Placeholder} :
    read? text = some (placeholder, rest) ↔
      placeholder.Proper ∧ text = placeholder.toChars ++ rest := by
  rw [toChars_eq]
  constructor
  · intro read
    unfold read? at read
    split at read
    · next c after =>
      split at read
      · next start =>
        obtain ⟨name, proper, behind⟩ := readDefault?_eq_some_iff.mp read
        refine ⟨⟨⟨c, _, name, start, List.all_eq_true.mp List.all_takeWhile⟩, proper⟩, ?_⟩
        calc '$' :: '{' :: c :: after
            = '$' :: '{' :: (c :: after.takeWhile isNameChar) ++ after.dropWhile isNameChar := by
              simp [List.takeWhile_append_dropWhile]
          _ = _ := by rw [behind, name, List.append_assoc]
      · cases read
    · cases read
  · rintro ⟨⟨⟨first, more, name, start, named⟩, proper⟩, rfl⟩
    obtain ⟨taken, left⟩ := span_name named placeholder.default rest
    have text : '$' :: '{' :: placeholder.name ++ ending placeholder.default ++ rest =
        '$' :: '{' :: first :: (more ++ (ending placeholder.default ++ rest)) := by
      simp [name]
    rw [text, read?, if_pos start, taken, left]
    exact readDefault?_eq_some_iff.mpr ⟨name, proper, rfl⟩

/-- A text begins with one proper placeholder at most. -/
theorem Proper.unique {placeholder other : Placeholder} {rest after : List Char}
    (proper : placeholder.Proper) (proper' : other.Proper)
    (same : placeholder.toChars ++ rest = other.toChars ++ after) :
    placeholder = other ∧ rest = after := by
  have first : read? (other.toChars ++ after) = some (placeholder, rest) :=
    read?_eq_some_iff.mpr ⟨proper, same.symm⟩
  rw [read?_eq_some_iff.mpr ⟨proper', rfl⟩] at first
  cases first
  exact ⟨rfl, rfl⟩

end Placeholder

/-! ### Pieces -/

/-- A piece of a text: a character, or a placeholder. -/
inductive Piece where
  | char (c : Char)
  | slot (placeholder : Placeholder)
deriving DecidableEq

namespace Piece

/-- The written form of a piece. -/
def toChars : Piece → List Char
  | .char c => [c]
  | .slot placeholder => placeholder.toChars

/-- The name of the variable in a piece. -/
def name? : Piece → Option String
  | .char _ => none
  | .slot placeholder => some (String.ofList placeholder.name)

/-- What a piece becomes in an environment: a character stays, and a placeholder becomes the value
of its variable if that is set, else its default, else itself. -/
inductive Becomes (environment : String → Option String) : Piece → List Char → Prop
  | char (c : Char) : Becomes environment (.char c) [c]
  | value {placeholder : Placeholder} {value : String}
      (set : environment (String.ofList placeholder.name) = some value) :
      Becomes environment (.slot placeholder) value.toList
  | default {placeholder : Placeholder} {default : List Char}
      (unset : environment (String.ofList placeholder.name) = none)
      (given : placeholder.default = some default) :
      Becomes environment (.slot placeholder) default
  | itself {placeholder : Placeholder}
      (unset : environment (String.ofList placeholder.name) = none)
      (plain : placeholder.default = none) :
      Becomes environment (.slot placeholder) placeholder.toChars

theorem toChars_ne_nil (piece : Piece) : piece.toChars ≠ [] := by
  cases piece with
  | char c => exact List.cons_ne_nil c []
  | slot placeholder => exact placeholder.toChars_ne_nil

/-- What a placeholder becomes is its value. -/
theorem becomes_value (environment : String → Option String) (placeholder : Placeholder) :
    Becomes environment (.slot placeholder) (placeholder.value environment) := by
  unfold Placeholder.value
  cases set : environment (String.ofList placeholder.name) with
  | some value => exact .value set
  | none =>
    cases given : placeholder.default with
    | some default => exact .default set given
    | none => exact .itself set given

theorem Becomes.unique {environment : String → Option String} {piece : Piece}
    {first second : List Char} (this : Becomes environment piece first)
    (that : Becomes environment piece second) : first = second := by
  cases this <;> cases that <;> simp_all

/-- A piece becomes the same in environments that agree on its variable. -/
theorem Becomes.congr {environment other : String → Option String} {piece : Piece}
    {part : List Char} (becomes : Becomes environment piece part)
    (same : ∀ name, piece.name? = some name → other name = environment name) :
    Becomes other piece part := by
  cases becomes with
  | char c => exact .char c
  | value set => exact .value ((same _ rfl).trans set)
  | default unset given => exact .default ((same _ rfl).trans unset) given
  | itself unset plain => exact .itself ((same _ rfl).trans unset) plain

end Piece

/-! ### Cuts -/

/-- The text of pieces, one behind the other. -/
def written (pieces : List Piece) : List Char := pieces.flatMap Piece.toChars

/-- A text is cut at its placeholders: the pieces are the whole text, the placeholders among them
are proper, and no placeholder begins where a character is copied. -/
structure Cut (text : List Char) (pieces : List Piece) : Prop where
  whole : written pieces = text
  proper : ∀ placeholder, .slot placeholder ∈ pieces → placeholder.Proper
  leftmost : ∀ before c after, pieces = before ++ .char c :: after →
    ∀ (placeholder : Placeholder) rest, placeholder.Proper →
      c :: written after ≠ placeholder.toChars ++ rest

namespace Cut

variable {text : List Char} {pieces others : List Piece}

theorem nil : Cut [] [] where
  whole := rfl
  proper _ member := by cases member
  leftmost before _ _ split := by cases before <;> cases split

theorem char (cut : Cut text pieces) {c : Char} (nothing : Placeholder.read? (c :: text) = none) :
    Cut (c :: text) (.char c :: pieces) where
  whole := congrArg (c :: ·) cut.whole
  proper placeholder member := cut.proper placeholder (by simpa using member)
  leftmost before d after split := by
    cases before with
    | nil =>
      cases split
      intro placeholder rest proper begins
      rw [cut.whole] at begins
      rw [Placeholder.read?_eq_some_iff.mpr ⟨proper, begins⟩] at nothing
      cases nothing
    | cons piece before =>
      cases split
      exact cut.leftmost before d after rfl

theorem slot (cut : Cut text pieces) {placeholder : Placeholder} (proper : placeholder.Proper) :
    Cut (placeholder.toChars ++ text) (.slot placeholder :: pieces) where
  whole := congrArg (placeholder.toChars ++ ·) cut.whole
  proper other member := by
    rcases List.mem_cons.mp member with same | later
    · cases same
      exact proper
    · exact cut.proper other later
  leftmost before d after split := by
    cases before with
    | nil => cases split
    | cons piece before =>
      cases split
      exact cut.leftmost before d after rfl

theorem tail {piece : Piece} (cut : Cut text (piece :: pieces)) : Cut (written pieces) pieces where
  whole := rfl
  proper placeholder member := cut.proper placeholder (List.mem_cons_of_mem _ member)
  leftmost before c after split := cut.leftmost (piece :: before) c after (by rw [split]; rfl)

/-- The first pieces of two cuts of one text are the same, and so is the text behind them. -/
theorem head_eq {piece other : Piece} (cut : Cut text (piece :: pieces))
    (cut' : Cut text (other :: others)) : piece = other ∧ written pieces = written others := by
  have same : piece.toChars ++ written pieces = other.toChars ++ written others :=
    cut.whole.trans cut'.whole.symm
  cases piece with
  | char c =>
    cases other with
    | char d => exact ⟨congrArg Piece.char (List.cons.inj same).1, (List.cons.inj same).2⟩
    | slot placeholder =>
      exact (cut.leftmost [] c pieces rfl placeholder _
        (cut'.proper placeholder List.mem_cons_self) same).elim
  | slot placeholder =>
    have proper := cut.proper placeholder List.mem_cons_self
    cases other with
    | char d => exact (cut'.leftmost [] d others rfl placeholder _ proper same.symm).elim
    | slot other =>
      obtain ⟨rfl, behind⟩ := proper.unique (cut'.proper other List.mem_cons_self) same
      exact ⟨rfl, behind⟩

/-- There is one cut of a text only. -/
theorem unique (cut : Cut text pieces) (cut' : Cut text others) : pieces = others := by
  have of_nil : ∀ {pieces}, written pieces = [] → pieces = [] := by
    intro pieces empty
    cases pieces with
    | nil => rfl
    | cons piece rest =>
      exact (piece.toChars_ne_nil (List.append_eq_nil_iff.mp empty).1).elim
  induction pieces generalizing text others with
  | nil => exact (of_nil (cut'.whole.trans cut.whole.symm)).symm
  | cons piece rest ih =>
    cases others with
    | nil => exact of_nil (cut.whole.trans cut'.whole.symm)
    | cons other others =>
      obtain ⟨rfl, behind⟩ := head_eq cut cut'
      rw [ih cut.tail (behind ▸ cut'.tail)]

end Cut

/-- Every text is cut by reading placeholders from left to right; its expansions and the names in it
follow the cut. -/
theorem exists_cut {count : Nat} {text : List Char} (bound : text.length ≤ count) :
    ∃ pieces, Cut text pieces ∧ namesIn count text = pieces.filterMap Piece.name? ∧
      ∀ environment, ∃ parts, List.Forall₂ (Piece.Becomes environment) pieces parts ∧
        expandChars environment count text = parts.flatten := by
  induction count generalizing text with
  | zero =>
    obtain rfl := List.eq_nil_of_length_eq_zero (Nat.le_zero.mp bound)
    exact ⟨[], .nil, rfl, fun _ => ⟨[], .nil, rfl⟩⟩
  | succ count ih =>
    cases text with
    | nil => exact ⟨[], .nil, rfl, fun _ => ⟨[], .nil, rfl⟩⟩
    | cons c rest =>
      cases read : Placeholder.read? (c :: rest) with
      | none =>
        obtain ⟨pieces, cut, names, expanded⟩ := ih (Nat.le_of_succ_le_succ bound)
        refine ⟨.char c :: pieces, cut.char read, ?_, fun environment => ?_⟩
        · rw [namesIn, read]
          exact names
        · obtain ⟨parts, become, same⟩ := expanded environment
          refine ⟨[c] :: parts, .cons (.char c) become, ?_⟩
          rw [expandChars, read, List.flatten_cons, ← same]
          rfl
      | some found =>
        obtain ⟨placeholder, after⟩ := found
        obtain ⟨proper, begins⟩ := Placeholder.read?_eq_some_iff.mp read
        have shorter : after.length ≤ count := by
          have written := List.length_pos_iff.mpr placeholder.toChars_ne_nil
          rw [begins, List.length_append] at bound
          omega
        obtain ⟨pieces, cut, names, expanded⟩ := ih shorter
        refine ⟨.slot placeholder :: pieces, begins ▸ cut.slot proper, ?_, fun environment => ?_⟩
        · rw [namesIn, read]
          exact congrArg (String.ofList placeholder.name :: ·) names
        · obtain ⟨parts, become, same⟩ := expanded environment
          refine ⟨placeholder.value environment :: parts,
            .cons (Piece.becomes_value _ _) become, ?_⟩
          rw [expandChars, read, List.flatten_cons, ← same]

/-- In environments that agree on the variables of pieces, these become the same. -/
theorem parts_eq {environment other : String → Option String} {pieces : List Piece}
    {parts parts' : List (List Char)}
    (become : List.Forall₂ (Piece.Becomes environment) pieces parts)
    (become' : List.Forall₂ (Piece.Becomes other) pieces parts')
    (same : ∀ name ∈ pieces.filterMap Piece.name?, other name = environment name) :
    parts' = parts := by
  induction become generalizing parts' with
  | nil => cases become'; rfl
  | @cons piece part rest _ here _ ih =>
    obtain ⟨part', rest', here', later', rfl⟩ := List.forall₂_cons_left_iff.mp become'
    have first : part' = part := here'.unique <| here.congr fun name named =>
      same name (List.mem_filterMap.mpr ⟨piece, List.mem_cons_self, named⟩)
    rw [first, ih later' fun name member => same name <| by
      obtain ⟨other, inside, named⟩ := List.mem_filterMap.mp member
      exact List.mem_filterMap.mpr ⟨other, List.mem_cons_of_mem _ inside, named⟩]

/-- **Expanding a text** replaces, in one pass, the placeholders at which it is cut and nothing
else. There is one such cut; each character of it stays in its place, each placeholder becomes the
value of its variable, else its default, else itself, and nothing depends on any other variable. -/
theorem expand_of_cut (text : String) :
    ∃ pieces, Cut text.toList pieces ∧ (∀ others, Cut text.toList others → others = pieces) ∧
      (∀ environment, ∃ parts, List.Forall₂ (Piece.Becomes environment) pieces parts ∧
        expand environment text = String.ofList parts.flatten) ∧
      variableNames text = pieces.filterMap Piece.name? ∧
      ∀ environment other : String → Option String,
        (∀ name ∈ variableNames text, other name = environment name) →
          expand other text = expand environment text := by
  obtain ⟨pieces, cut, names, expanded⟩ := exists_cut (Nat.le_refl text.toList.length)
  refine ⟨pieces, cut, fun others cut' => cut'.unique cut, fun environment => ?_, names,
    fun environment other same => ?_⟩
  · obtain ⟨parts, become, same⟩ := expanded environment
    exact ⟨parts, become, congrArg String.ofList same⟩
  · obtain ⟨parts, become, whole⟩ := expanded environment
    obtain ⟨parts', become', whole'⟩ := expanded other
    rw [variableNames, names] at same
    rw [expand, expand, whole, whole', parts_eq become become' same]

/-- A default ends at the first closing brace, neither defaults nor values are read again, and
without anything behind its hyphen a default is none. -/
example :
    let environment (name : String) := if name = "B" then some "${A}" else none
    expand environment "${A:-${B}} ${B} ${A:-}" =
      "${B} ${A} ${A:-}" := by
  decide +kernel

end Gatehouse.Text
