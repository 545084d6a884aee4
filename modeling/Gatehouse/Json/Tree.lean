/-
**JSON values as trees.**

* `Json.toTree?`: a value with its literals decoded and its numbers computed, up to a depth;
* `Tree.toJson`: a tree as compact JSON text.
-/

import Gatehouse.Json.Syntax
import Gatehouse.Json.Literal
import Gatehouse.Settings.Merge

namespace Gatehouse

open Text (Bytes)

namespace Json

def maxDepth : Nat := 127

mutual

/-- The tree of a value whose arrays and objects nest at most `depth` deep. -/
def toTree? (depth : Nat) : Json → Option Tree
  | .null => some .null
  | .bool value => some (.bool value)
  | .number value => value.value?.map fun
    | .int value => .int value
    | .float value => .float value
  | .string content => (decodeLiteral? content).map .text
  | .array items =>
    match depth with
    | 0 => none
    | depth + 1 => (itemTrees? depth items).map .list
  | .object members =>
    match depth with
    | 0 => none
    | depth + 1 => (memberTrees? depth members).map .object

def itemTrees? (depth : Nat) : List Json → Option (List Tree)
  | [] => some []
  | item :: rest => do
    let first ← toTree? depth item
    let others ← itemTrees? depth rest
    return first :: others

/-- The entries of an object, in the order they are written. -/
def memberTrees? (depth : Nat) : List (Bytes × Json) → Option (List (String × Tree))
  | [] => some []
  | (key, value) :: rest => do
    let name ← decodeLiteral? key
    let first ← toTree? depth value
    let others ← memberTrees? depth rest
    return (name, first) :: others

end

/-- The ordered tree of a JSON text; of members with one key the last one counts. -/
def readTree? (bytes : Bytes) : Option Tree :=
  ((parse? bytes).bind (toTree? maxDepth)).map Tree.canonical

end Json

namespace Tree

mutual

def toJson : Tree → String
  | .null => "null"
  | .bool value => if value then "true" else "false"
  | .int value => toString value
  | .float value => value.toText
  | .text value => Json.encodeLiteral value
  | .list items => "[" ++ ",".intercalate (itemTexts items) ++ "]"
  | .object entries => "\x7b" ++ ",".intercalate (entryTexts entries) ++ "\x7d"

def itemTexts : List Tree → List String
  | [] => []
  | item :: rest => toJson item :: itemTexts rest

def entryTexts : List (String × Tree) → List String
  | [] => []
  | (key, value) :: rest => (Json.encodeLiteral key ++ ":" ++ toJson value) :: entryTexts rest

end

end Tree

end Gatehouse
