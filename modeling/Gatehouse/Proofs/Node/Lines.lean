/-
**Header lines.**

A header may come in several lines. Authentication sees the texts of all its lines as one value. A
line with bytes that are no visible characters has no text: it is left out, and if no line of a
header is left, the header is not there.

* `FrontDoor.visibleText?_eq_some_iff`, `FrontDoor.visibleText?_eq_none_iff`: the lines that have a
  text, and which;
* `FrontDoor.linesNamed`, `FrontDoor.textsNamed`: the lines of a header and their texts;
* `FrontDoor.header?_requestOf`: the value of a header from the texts of its lines;
* `FrontDoor.members_valueOf`: the members of that value if it is read as a list.
-/

import Gatehouse.Node.FrontDoor
import Gatehouse.Proofs.Text.Encoding

namespace Gatehouse

namespace FrontDoor

open Text (Bytes)

/-! ### The text of a line -/

theorem lt_of_isVisible {byte : UInt8} (visible : isVisible byte = true) : byte.toNat < 128 := by
  simp only [isVisible, Bool.or_eq_true, Bool.and_eq_true, decide_eq_true_eq] at visible
  rcases visible with ⟨_, below⟩ | rfl
  · have : byte.toNat < 127 := below
    omega
  · decide

/-- Visible bytes encode the text that has one character for each of them. -/
theorem encode_of_visible {value : Bytes} (visible : value.all isVisible = true) :
    Text.encode (String.ofList (value.map fun byte => Char.ofNat byte.toNat)) = value :=
  Text.encode_ascii fun byte member => lt_of_isVisible (List.all_eq_true.mp visible byte member)

/-- Exactly visible bytes have a text, and it is the text that they encode. -/
theorem visibleText?_eq_some_iff {value : Bytes} {text : String} :
    visibleText? value = some text ↔ value.all isVisible = true ∧ value = Text.encode text := by
  unfold visibleText?
  split
  · next visible =>
    constructor
    · intro decoded
      exact ⟨visible, (Text.encode_of_decode? decoded).symm⟩
    · rintro ⟨_, rfl⟩
      exact Text.decode?_encode text
  · next hidden =>
    constructor
    · intro impossible; cases impossible
    · rintro ⟨visible, _⟩; exact (hidden visible).elim

/-- A line has no text exactly if one of its bytes is not visible. -/
theorem visibleText?_eq_none_iff {value : Bytes} :
    visibleText? value = none ↔ value.all isVisible = false := by
  constructor
  · intro without
    refine Bool.eq_false_iff.mpr fun visible => ?_
    rw [visibleText?_eq_some_iff.mpr ⟨visible, (encode_of_visible visible).symm⟩] at without
    cases without
  · intro hidden
    rw [visibleText?, hidden, if_neg Bool.false_ne_true]

/-! ### The lines of a header -/

/-- The values of the lines of a name in any case, in the order they are sent. -/
def linesNamed (name : String) (lines : List (String × Bytes)) : List Bytes :=
  (lines.filter fun line => Text.lowerAscii line.1 = Text.lowerAscii name).map (·.2)

theorem linesNamed_singleton (name other : String) (value : Bytes) :
    linesNamed name [(other, value)] =
      if Text.lowerAscii other = Text.lowerAscii name then [value] else [] := by
  unfold linesNamed
  by_cases same : Text.lowerAscii other = Text.lowerAscii name
  · simp [same]
  · simp [same]

/-- The texts of the lines of a name. -/
def textsNamed (name : String) (lines : List (String × Bytes)) : List String :=
  (linesNamed name lines).filterMap visibleText?

/-- The value of a header with the text of one more line. -/
def withText (value : Option String) (text : String) : Option String :=
  match value with
  | some before => some (before ++ ", " ++ text)
  | none => some text

/-- The value of a header with lines of the given texts. -/
def valueOf (texts : List String) : Option String := texts.foldl withText none

theorem find?_addLine_of_ne {headers : Table String} {line : String × Bytes} {name : String}
    (other : Text.lowerAscii line.1 ≠ name) :
    (addLine headers line).find? name = headers.find? name := by
  unfold addLine
  cases visibleText? line.2 with
  | none => rfl
  | some text =>
    cases before : headers.find? (Text.lowerAscii line.1) with
    | none => simp [before, Table.find?_put, other.symm]
    | some value => simp [before, Table.find?_put, other.symm]

theorem find?_addLine_of_text {headers : Table String} {line : String × Bytes} {text : String}
    (visible : visibleText? line.2 = some text) :
    (addLine headers line).find? (Text.lowerAscii line.1) =
      withText (headers.find? (Text.lowerAscii line.1)) text := by
  unfold addLine withText
  rw [visible]
  cases before : headers.find? (Text.lowerAscii line.1) with
  | none => simp [before, Table.find?_put]
  | some value => simp [before, Table.find?_put]

theorem find?_foldl_addLine (name : String) (headers : Table String)
    (lines : List (String × Bytes)) :
    (lines.foldl addLine headers).find? (Text.lowerAscii name) =
      (textsNamed name lines).foldl withText (headers.find? (Text.lowerAscii name)) := by
  unfold textsNamed linesNamed
  induction lines generalizing headers with
  | nil => rfl
  | cons line rest ih =>
    rw [List.foldl_cons, ih]
    by_cases same : Text.lowerAscii line.1 = Text.lowerAscii name
    · rw [List.filter_cons_of_pos (by simpa using same), List.map_cons]
      cases text : visibleText? line.2 with
      | none => rw [List.filterMap_cons_none text, addLine, text]
      | some text' =>
        rw [List.filterMap_cons_some text, List.foldl_cons, ← same, find?_addLine_of_text text]
    · rw [List.filter_cons_of_neg (by simpa using same), find?_addLine_of_ne same]

/-- **The value of a header** of a request is that of the texts of its lines. -/
theorem header?_requestOf (name : String) (peer : SocketAddress) (request : Http.Request) :
    (requestOf peer request).header? name = valueOf (textsNamed name request.headers) :=
  find?_foldl_addLine name .empty request.headers

/-! ### Headers that are lists -/

theorem members_withText (value : Option String) (text : String) :
    ((withText value text).map Text.commaList).getD [] =
      (value.map Text.commaList).getD [] ++ Text.commaList text := by
  cases value with
  | none => rfl
  | some before => exact Text.commaList_append before text

/-- The members of a header are those of the texts of its lines. -/
theorem members_valueOf (texts : List String) :
    ((valueOf texts).map Text.commaList).getD [] = texts.flatMap Text.commaList := by
  have generalized : ∀ value, ((texts.foldl withText value).map Text.commaList).getD [] =
      (value.map Text.commaList).getD [] ++ texts.flatMap Text.commaList := by
    induction texts with
    | nil => intro value; rw [List.flatMap_nil, List.append_nil]; rfl
    | cons text rest ih =>
      intro value
      rw [List.foldl_cons, ih, members_withText, List.flatMap_cons, List.append_assoc]
  exact generalized none

end FrontDoor

end Gatehouse
