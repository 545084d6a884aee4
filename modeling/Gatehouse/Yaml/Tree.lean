/-
**The tree of a YAML document.**

* `readTree`: the tree of a text, null when the text has no document;
* `Settings.ofYaml`: the settings of a text; a blank text and a text whose value is no mapping hold
  none.

Aliases are replaced by what they name. Since this can repeat a part many times over, the number of
replacements is bounded by a hundred times the number of the document's events, and collections nest
at most 128 deep.
-/

import Gatehouse.Yaml.Node
import Gatehouse.Yaml.Scheme
import Gatehouse.Settings.Basic

namespace Gatehouse.Yaml

/-- Reading with a number of alias replacements left. -/
abbrev Resolving := StateT Nat (Except Fault)

namespace Document

/-- A node that is no alias: what an alias names, for one of the replacements left. -/
def resolve (document : Document) (node : Node) : Resolving Node := do
  match node with
  | .alias number =>
    match ← get with
    | 0 => throw .tooManyAliases
    | left + 1 =>
      set left
      match document.target? number with
      | some target => return target
      | none => throw .unknownAnchor
  | node => return node

def keyText (document : Document) (key : Node) : Resolving String := do
  match ← document.resolve key with
  | .scalar _ _ text => return text
  | _ => throw .badKey

/-- The tree of a node whose collections nest at most `depth` deep. -/
def tree (document : Document) : Nat → Node → Resolving Tree
  | depth, node => do
    match ← document.resolve node with
    | .scalar tag style text => liftM (scalarTree tag style text)
    | .sequence tag items =>
      if tag.any (·.startsWith "!") then throw .taggedValue
      match depth with
      | 0 => throw .tooDeep
      | depth + 1 => return .list (← items.mapM (document.tree depth))
    | .mapping tag entries =>
      if tag.any (·.startsWith "!") then throw .taggedValue
      match depth with
      | 0 => throw .tooDeep
      | depth + 1 =>
        return .object (← entries.mapM fun (key, value) => do
          let name ← document.keyText key
          return (name, ← document.tree depth value))
    | .alias _ => throw .unknownAnchor

def maxDepth : Nat := 128

/-- The number of alias replacements a document may ask for. -/
def maxReplacements (document : Document) : Nat := document.events * 100

def toTree (document : Document) : Except Fault Tree :=
  (document.tree maxDepth document.root).run' document.maxReplacements

end Document

/-- The tree of a text with at most one document. -/
def readTree (text : String) : Except Fault Tree := do
  match ← document? text with
  | some document => document.toTree
  | none => return .null

end Gatehouse.Yaml

namespace Gatehouse.Settings

/-- The settings of a YAML text; a blank text has none. -/
def ofYaml (text : String) : Except Yaml.Fault Settings :=
  if (Text.trimBoth text.toList).isEmpty then .ok empty
  else (Yaml.readTree text).map ofTree

end Gatehouse.Settings
