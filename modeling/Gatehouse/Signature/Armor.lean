/-
**Armored data.**

Bytes in a text that can be printed: base64 between a line that begins and a line that ends it, both
with a label. What stands before and after them does not count.

* `Armor.parse?`: reads the first armored data of a text.
-/

import Gatehouse.Text.Base64
import Gatehouse.Text.Split

namespace Gatehouse

open Text (Bytes)

/-- Armored data. -/
structure Armor where
  label : String
  content : Bytes
deriving DecidableEq, Repr

namespace Armor

/-- What begins data, before the label. -/
def beginMark : List Char := "-----BEGIN ".toList

/-- What ends data, before the label. -/
def endMark : List Char := "-----END ".toList

/-- What follows a label. -/
def labelMark : List Char := "-----".toList

def isSpace (c : Char) : Bool := c = ' ' || c = '\t' || c = '\n' || c = '\r'

def withoutReturn (line : List Char) : List Char :=
  if line.getLast? = some '\r' then line.dropLast else line

def lines (text : List Char) : List (List Char) := (Text.splitAll '\n' text).map withoutReturn

/-- The fields before the first blank line, and the data after it; without a blank line there are no
fields. -/
def fieldsAndData (body : List Char) : List Char × List Char :=
  ((Text.cutAt? ['\n', '\n'] body).orElse fun _ =>
    Text.cutAt? ['\r', '\n', '\r', '\n'] body).getD ([], body)

/-- Whether every line of the fields is a name with a colon. -/
def areFields (fields : List Char) : Bool :=
  fields.isEmpty || (lines fields).all fun line => line.contains ':'

/-- The bytes of lines of base64; blanks at the end of a line do not count. -/
def bytes? (data : List Char) : Option Bytes :=
  let symbols := (lines data).flatMap Text.trimRight
  (Base64.decode Base64.standard true (Text.encode (String.ofList symbols))).toOption

/-- The label, the body and the label at the end of the first armored data. -/
def framed? (text : List Char) : Option (List Char × List Char × List Char) := do
  let (_, rest) ← Text.cutAt? beginMark text
  let (label, rest) ← Text.cutAt? labelMark rest
  let (body, rest) ← Text.cutAt? endMark (rest.dropWhile isSpace)
  let (final, _) ← Text.cutAt? labelMark rest
  return (label, body, final)

/-- The first armored data of a text; both labels are the same and not empty. -/
def parse? (text : String) : Option Armor := do
  let (label, body, final) ← framed? text.toList
  let (fields, data) := fieldsAndData body
  if label.isEmpty || label ≠ final || !areFields fields then none
  return ⟨String.ofList label, ← bytes? data⟩

end Armor

end Gatehouse
