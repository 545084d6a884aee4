/-
**Settings.**

The settings held by one configuration document: named values under dotted paths. A document may
write a path as nested objects, as a flat dotted key, or as any mixture of the two.

* `Settings.get?`: the value at a path, the longest literal key at each level first;
* `Settings.under`: everything below a path as settings of their own;
* `Settings.text?`, `flag`, `integer`, `texts`: values of known kinds.
-/

import Gatehouse.Settings.Merge
import Gatehouse.Settings.Path

namespace Gatehouse

/-- The settings of one document: an ordered object. -/
structure Settings where
  entries : Entries Tree
  ordered : Tree.OrderedEntries entries

namespace Settings

/-- Settings without entries. -/
def empty : Settings := ⟨[], trivial⟩

instance : Inhabited Settings := ⟨empty⟩

instance : DecidableEq Settings := fun first second =>
  decidable_of_iff (first.entries = second.entries)
    ⟨fun same => by cases first; cases second; simp_all, fun same => same ▸ rfl⟩

/-- The settings as a tree. -/
def toTree (settings : Settings) : Tree := .object settings.entries

/-- The settings held by a tree; a tree that is no object holds none. -/
def ofTree (tree : Tree) : Settings :=
  match h : tree.canonical with
  | .object entries => ⟨entries, by have := tree.ordered_canonical; rwa [h] at this⟩
  | _ => empty

/-- Whether there are no entries. -/
def isEmpty (settings : Settings) : Bool := settings.entries.isEmpty

/-- The keys at the top, ascending. -/
def names (settings : Settings) : List String := settings.entries.map (·.1)

end Settings

/-! ### Looking up a path -/

namespace Tree

mutual

/-- The value at a path: the whole path as one key first, then every cut of it, the longest key
first, that leads to a value. -/
def lookup : Tree → String → Option Tree
  | .object entries, path =>
    if path = "" then some (.object entries)
    else match Entries.find? path entries with
      | some value => some value
      | none => (Path.cuts path).findSome? fun cut => lookupUnder entries cut.1 cut.2
  | tree, path => if path = "" then some tree else none

/-- The value at a path below the entry with a given key. -/
def lookupUnder : List (String × Tree) → String → String → Option Tree
  | [], _, _ => none
  | (key, value) :: rest, name, path =>
    if name = key then lookup value path else lookupUnder rest name path

end

theorem lookupUnder_eq (entries : Entries Tree) (name path : String) :
    lookupUnder entries name path = (entries.find? name).bind fun value => value.lookup path := by
  induction entries with
  | nil => rfl
  | cons entry rest ih =>
    obtain ⟨key, value⟩ := entry
    simp only [lookupUnder, Entries.find?]
    split
    · rfl
    · exact ih

/-! ### Collecting what lies below a path -/

mutual

/-- Merge into `found` what a tree standing at `here` holds below `path`. -/
def gather (path here : String) : Tree → Entries Tree → Entries Tree
  | .object entries, found => gatherEntries path here entries found
  | _, found => found

/-- The same for the entries of an object, one after another. -/
def gatherEntries (path here : String) : List (String × Tree) → Entries Tree → Entries Tree
  | [], found => found
  | (key, value) :: rest, found =>
    let place := Path.child here key
    let found :=
      if place = path then mergeAll found value.members
      else match Path.below? path place with
        | some name => insertMerged found name value
        | none => if (Path.below? place path).isSome then gather path place value found else found
    gatherEntries path here rest found

end

/-- Gathering keeps the order of keys. -/
theorem orderedEntries_gather (path : String) (tree : Tree) : ∀ (here : String)
    (found : Entries Tree), tree.Ordered → OrderedEntries found →
      OrderedEntries (gather path here tree found) := by
  induction tree using Tree.induction with
  | object entries ih =>
    intro here found ordered foundOrdered
    have members := ((ordered_object_iff entries).mp ordered).2
    rw [gather]
    clear ordered
    induction entries generalizing found with
    | nil => exact foundOrdered
    | cons entry rest rest_ih =>
      obtain ⟨key, value⟩ := entry
      rw [gatherEntries]
      have valueOrdered := members (key, value) List.mem_cons_self
      refine rest_ih (fun entry member => ih entry (List.mem_cons_of_mem _ member)) _ ?_
        (fun entry member => members entry (List.mem_cons_of_mem _ member))
      split
      · exact orderedEntries_mergeAll foundOrdered (ordered_of_mem_members valueOrdered)
      · split
        · exact orderedEntries_insertMerged foundOrdered _ valueOrdered
        · split
          · exact ih (key, value) List.mem_cons_self _ _ valueOrdered foundOrdered
          · exact foundOrdered
  | _ => intro here found _ foundOrdered; exact foundOrdered

end Tree

namespace Settings

/-- The value at a path; the empty path is the whole document. -/
def get? (settings : Settings) (path : String) : Option Tree := settings.toTree.lookup path

/-- Everything below a path, keyed by what follows the path; the empty path is the whole document.
Flat keys and nested objects are merged. -/
def under (settings : Settings) (path : String) : Settings :=
  if path = "" then settings
  else ⟨Tree.gatherEntries path "" settings.entries [],
    Tree.orderedEntries_gather path settings.toTree "" [] settings.ordered trivial⟩

/-! ### Typed reading -/

/-- The text at a path; numbers and truth values are written out. -/
def text? (settings : Settings) (path : String) : Option String :=
  (settings.get? path).bind Tree.scalarText?

/-- The truth value at a path, also when it is written as a text. -/
def flag (settings : Settings) (path : String) (default : Bool) : Bool :=
  match settings.get? path with
  | some (.bool value) => value
  | some (.text value) =>
    let word := Text.lowerAscii (Text.trim value)
    if word = "true" then true else if word = "false" then false else default
  | _ => default

/-- Whether an integer is one of the 64-bit signed integers. -/
def isInt64 (value : Int) : Bool :=
  -(Nat.pow 2 63 : Nat) ≤ value && value < (Nat.pow 2 63 : Nat)

/-- The 64-bit integer written by a text: a sign at most, then decimal digits. -/
def readInt64? (text : String) : Option Int :=
  let digits? (chars : List Char) : Option Nat :=
    if chars.isEmpty || !chars.all Char.isDigit then none
    else some (chars.foldl (fun value c => value * 10 + (c.toNat - '0'.toNat)) 0)
  let value? : Option Int := match text.toList with
    | '-' :: digits => (digits? digits).map fun value => -(value : Int)
    | '+' :: digits => (digits? digits).map fun value => (value : Int)
    | digits => (digits? digits).map fun value => (value : Int)
  value?.filter isInt64

/-- The 64-bit integer at a path, also when it is written as a text. -/
def integer (settings : Settings) (path : String) (default : Int) : Int :=
  match settings.get? path with
  | some (.int value) => if isInt64 value then value else default
  | some (.text value) => (readInt64? (Text.trim value)).getD default
  | _ => default

/-- The texts at a path: the scalar members of a list, or the parts of a comma-separated text. -/
def texts (settings : Settings) (path : String) : List String :=
  match settings.get? path with
  | some (.list items) => items.filterMap Tree.scalarText?
  | some (.text value) => Text.commaList value
  | _ => []

end Settings

end Gatehouse
