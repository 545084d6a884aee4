/-
**Blank characters.**

The characters with the Unicode property White_Space, and texts without blanks at their ends.

* `trimmed_of_trim`: a trimmed text neither begins nor ends with a blank;
* `trim_of_trimmed`: such a text is left as it is.
-/

namespace Gatehouse.Text

/-- Whether a character has the property White_Space. -/
def isBlank (c : Char) : Bool :=
  let n := c.toNat
  (0x9 ≤ n && n ≤ 0xD) || n == 0x20 || n == 0x85 || n == 0xA0 || n == 0x1680 ||
    (0x2000 ≤ n && n ≤ 0x200A) || n == 0x2028 || n == 0x2029 || n == 0x202F || n == 0x205F ||
    n == 0x3000

def trimLeft (text : List Char) : List Char := text.dropWhile isBlank

def trimRight (text : List Char) : List Char := (text.reverse.dropWhile isBlank).reverse

def trimBoth (text : List Char) : List Char := trimRight (trimLeft text)

/-- Neither the first nor the last character is blank. -/
def Trimmed (text : List Char) : Prop :=
  (∀ c ∈ text.head?, isBlank c = false) ∧ ∀ c ∈ text.getLast?, isBlank c = false

theorem head?_dropWhile_of_mem (test : Char → Bool) (text : List Char) :
    ∀ c ∈ (text.dropWhile test).head?, test c = false := by
  induction text with
  | nil => simp
  | cons head rest ih =>
    intro c member
    by_cases dropped : test head = true
    · rw [List.dropWhile_cons_of_pos dropped] at member
      exact ih c member
    · rw [List.dropWhile_cons_of_neg dropped] at member
      cases member
      simpa using dropped

theorem trimLeft_eq_self {text : List Char} (plain : ∀ c ∈ text.head?, isBlank c = false) :
    trimLeft text = text := by
  cases text with
  | nil => rfl
  | cons head rest => simp [trimLeft, plain head rfl]

theorem trimRight_eq_self {text : List Char} (plain : ∀ c ∈ text.getLast?, isBlank c = false) :
    trimRight text = text := by
  have front : ∀ c ∈ text.reverse.head?, isBlank c = false := by
    intro c member
    rw [List.head?_reverse] at member
    exact plain c member
  have kept := trimLeft_eq_self front
  unfold trimLeft at kept
  rw [trimRight, kept, List.reverse_reverse]

theorem trim_of_trimmed {text : List Char} (trimmed : Trimmed text) : trimBoth text = text := by
  rw [trimBoth, trimLeft_eq_self trimmed.1, trimRight_eq_self trimmed.2]

/-- Dropping blanks at the end keeps the first character of what is left. -/
theorem head?_trimRight {text : List Char} :
    ∀ c ∈ (trimRight text).head?, c ∈ text.head? := by
  intro c member
  unfold trimRight at member
  rw [List.head?_reverse] at member
  have suffix : (text.reverse.dropWhile isBlank) <:+ text.reverse := List.dropWhile_suffix _
  obtain ⟨dropped, split⟩ := suffix
  have whole : text = (text.reverse.dropWhile isBlank).reverse ++ dropped.reverse := by
    rw [← List.reverse_append, split, List.reverse_reverse]
  rw [whole]
  have head : c ∈ (text.reverse.dropWhile isBlank).reverse.head? := by
    rw [List.head?_reverse]; exact member
  cases shape : (text.reverse.dropWhile isBlank).reverse with
  | nil => rw [shape] at head; cases head
  | cons first rest => rw [shape] at head; simpa using head

theorem trimmed_of_trim (text : List Char) : Trimmed (trimBoth text) := by
  constructor
  · intro c member
    exact head?_dropWhile_of_mem isBlank text c (head?_trimRight c member)
  · intro c member
    unfold trimBoth trimRight at member
    rw [List.getLast?_reverse] at member
    exact head?_dropWhile_of_mem isBlank _ c member

/-- A text without the blanks at its ends. -/
def trim (text : String) : String := String.ofList (trimBoth text.toList)

end Gatehouse.Text
