/-
**Placeholders.**

A text may hold placeholders for variables: a name in braces after a dollar sign, perhaps with a
default. Placeholders are replaced in one pass from left to right; what is put in is not read again.

* `Placeholder.read?`: the placeholder at the front of a text;
* `Text.expand`: a text with its placeholders replaced;
* `Text.variableNames`: the variables that it depends on.
-/

import Gatehouse.Text.Split

namespace Gatehouse.Text

/-- A placeholder: the name of a variable, and what stands for a variable that is not set. -/
structure Placeholder where
  name : List Char
  default : Option (List Char)
deriving DecidableEq, Repr

namespace Placeholder

/-- Capital letters and the underscore, which begin names. -/
def isNameStart (c : Char) : Bool := c.isUpper || c = '_'

/-- Names go on with digits, too. -/
def isNameChar (c : Char) : Bool := isNameStart c || c.isDigit

/-- The written form. -/
def toChars (placeholder : Placeholder) : List Char :=
  match placeholder.default with
  | none => '$' :: '{' :: placeholder.name ++ ['}']
  | some default => '$' :: '{' :: placeholder.name ++ ':' :: '-' :: default ++ ['}']

/-- What follows the name of a placeholder: its end, or a default of at least one character. -/
def readDefault? (name : List Char) : List Char → Option (Placeholder × List Char)
  | '}' :: rest => some (⟨name, none⟩, rest)
  | ':' :: '-' :: rest =>
    match splitFirst? '}' rest with
    | some (default, rest) => if default.isEmpty then none else some (⟨name, some default⟩, rest)
    | none => none
  | _ => none

/-- The placeholder at the front of a text, and what follows it. -/
def read? : List Char → Option (Placeholder × List Char)
  | '$' :: '{' :: c :: rest =>
    if isNameStart c then readDefault? (c :: rest.takeWhile isNameChar) (rest.dropWhile isNameChar)
    else none
  | _ => none

/-- What a placeholder is replaced by: the value of its variable, its default, or itself. -/
def value (environment : String → Option String) (placeholder : Placeholder) : List Char :=
  match environment (String.ofList placeholder.name) with
  | some value => value.toList
  | none => placeholder.default.getD placeholder.toChars

end Placeholder

/-- A text with its placeholders replaced; the count bounds the length of the text. -/
def expandChars (environment : String → Option String) : (count : Nat) → List Char → List Char
  | 0, text => text
  | _, [] => []
  | count + 1, c :: rest =>
    match Placeholder.read? (c :: rest) with
    | some (placeholder, after) =>
      placeholder.value environment ++ expandChars environment count after
    | none => c :: expandChars environment count rest

/-- A text with its placeholders replaced. -/
def expand (environment : String → Option String) (text : String) : String :=
  String.ofList (expandChars environment text.toList.length text.toList)

/-- The names in the placeholders of a text; the count bounds its length. -/
def namesIn : (count : Nat) → List Char → List String
  | 0, _ => []
  | _, [] => []
  | count + 1, c :: rest =>
    match Placeholder.read? (c :: rest) with
    | some (placeholder, after) => String.ofList placeholder.name :: namesIn count after
    | none => namesIn count rest

/-- The names of the variables that a text depends on. -/
def variableNames (text : String) : List String := namesIn text.toList.length text.toList

end Gatehouse.Text
