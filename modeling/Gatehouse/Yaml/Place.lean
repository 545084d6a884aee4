/-
**Places in a YAML text.**

A place counts the characters before it, the lines before its line and the characters before it in
its line. Reading moves a place forward by a character or by a line break.
-/

import Gatehouse.Yaml.Token

namespace Gatehouse.Yaml

/-- A place in a text. -/
structure Place where
  index : Nat
  line : Nat
  column : Nat
deriving DecidableEq, Repr, Inhabited

namespace Place

def start : Place := ⟨0, 0, 0⟩

def forward (place : Place) (count : Nat) : Place :=
  { place with index := place.index + count, column := place.column + count }

def nextLine (place : Place) (count : Nat) : Place :=
  ⟨place.index + count, place.line + 1, 0⟩

end Place

/-- The text of a line break in a scalar: every break but the two Unicode separators is a line
feed. -/
def breakText (c : Char) : List Char := if c == '\u2028' || c == '\u2029' then [c] else ['\n']

/-! ### Gaps between the words of a scalar -/

/-- What stands between two words of a flow scalar: blanks of one line, or line breaks. -/
inductive Gap where
  | blanks (read : List Char)
  | breaks (first : List Char) (others : List Char)
deriving DecidableEq, Repr

namespace Gap

/-- The text a gap stands for: blanks are kept, one line break is folded into a space, and further
line breaks are kept instead of the first. -/
def folded : Gap → List Char
  | .blanks read => read.reverse
  | .breaks first others =>
    if first = ['\n'] then (if others = [] then [' '] else others) else first ++ others

def spansLines : Gap → Bool
  | .blanks _ => false
  | .breaks _ _ => true

/-- The gap after one more blank; blanks at the beginning of a line are dropped. -/
def addBlank (gap : Option Gap) (c : Char) : Gap :=
  match gap with
  | none => .blanks [c]
  | some (.blanks read) => .blanks (c :: read)
  | some (.breaks first others) => .breaks first others

/-- The gap after one more line break; blanks before it are dropped. -/
def addBreak (gap : Option Gap) (text : List Char) : Gap :=
  match gap with
  | some (.breaks first others) => .breaks first (others ++ text)
  | _ => .breaks text []

end Gap

def foldedGap (gap : Option Gap) : List Char :=
  match gap with
  | none => []
  | some gap => gap.folded

end Gatehouse.Yaml
