/-
**Groups of settings.**

The named objects below a path. An object stands for the group named by its whole key, whatever
dots the key has; a flat leaf `name.rest` belongs to the group of its first segment.

* `Settings.groups`: the groups, in the order of their names.
-/

import Gatehouse.Settings.Basic

namespace Gatehouse

namespace Tree

/-- The entries of a group so far. -/
def groupOf (groups : Entries Settings) (name : String) : Settings :=
  (groups.find? name).getD Settings.empty

/-- Put one entry below the path into its group; an undotted leaf is in none. -/
def addToGroup (groups : Entries Settings) (key : String) (value : Tree)
    (ordered : value.Ordered) : Entries Settings :=
  match value, ordered with
  | .object children, ordered =>
    let group := groupOf groups key
    groups.put key ⟨mergeAll group.entries children,
      orderedEntries_mergeAll group.ordered ((ordered_object_iff children).mp ordered).2⟩
  | leaf, ordered =>
    match Text.splitFirst? '.' key.toList with
    | none => groups
    | some (first, rest) =>
      let name := String.ofList first
      let group := groupOf groups name
      groups.put name ⟨insertMerged group.entries (String.ofList rest) leaf,
        orderedEntries_insertMerged group.ordered _ ordered⟩

theorem ascending_addToGroup {groups : Entries Settings} (ascending : groups.Ascending)
    (key : String) (value : Tree) (ordered : value.Ordered) :
    (addToGroup groups key value ordered).Ascending := by
  unfold addToGroup
  split
  · exact Entries.ascending_put ascending _ _
  · split
    · exact ascending
    · exact Entries.ascending_put ascending _ _

/-- Put the entries below a path into their groups one after another. -/
def groupAll : (entries : Entries Tree) → (∀ entry ∈ entries, entry.2.Ordered) → Table Settings →
    Table Settings
  | [], _, groups => groups
  | (key, value) :: rest, ordered, groups =>
    have valueOrdered := ordered (key, value) List.mem_cons_self
    groupAll rest (fun entry member => ordered entry (List.mem_cons_of_mem _ member))
      ⟨addToGroup groups.entries key value valueOrdered,
        ascending_addToGroup groups.ascending key value valueOrdered⟩

end Tree

namespace Settings

/-- The named groups below a path, by name; the empty path is the whole document. -/
def groups (settings : Settings) (path : String) : Table Settings :=
  let below := settings.under path
  Tree.groupAll below.entries ((Tree.orderedEntries_iff _).mp below.ordered).2 Table.empty

end Settings

end Gatehouse
