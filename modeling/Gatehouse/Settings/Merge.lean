/-
**Merging configuration trees.**

Entries are put into an object one after another. Where an object meets an object the two are merged
key by key; any other value replaces what was there.

* `orderedEntries_insertMerged`, `orderedEntries_mergeAll`: merging keeps the order of keys;
* `ordered_canonical`: reading a tree's entries in any order gives an ordered tree.
-/

import Gatehouse.Settings.Tree

namespace Gatehouse.Tree

mutual

/-- Put a value under a key; an object put over an object is merged into it. -/
def insertMerged (entries : Entries Tree) (key : String) : Tree → Entries Tree
  | .object incoming =>
    match entries.find? key with
    | some (.object existing) => entries.put key (.object (mergeAll existing incoming))
    | _ => entries.put key (.object incoming)
  | value => entries.put key value

/-- Put entries into an object one after another. -/
def mergeAll (entries : Entries Tree) : List (String × Tree) → Entries Tree
  | [] => entries
  | (key, value) :: rest => mergeAll (insertMerged entries key value) rest

end

/-- Merging entries of which each single insertion keeps the order keeps the order. -/
theorem orderedEntries_mergeAll_of {incoming : Entries Tree}
    (keeps : ∀ entry ∈ incoming, ∀ entries key, OrderedEntries entries → entry.2.Ordered →
      OrderedEntries (insertMerged entries key entry.2))
    {entries : Entries Tree} (ordered : OrderedEntries entries)
    (incomingOrdered : ∀ entry ∈ incoming, entry.2.Ordered) :
    OrderedEntries (mergeAll entries incoming) := by
  induction incoming generalizing entries with
  | nil => simpa [mergeAll] using ordered
  | cons entry rest ih =>
    obtain ⟨key, value⟩ := entry
    rw [mergeAll]
    exact ih (fun entry member => keeps entry (List.mem_cons_of_mem _ member))
      (keeps (key, value) List.mem_cons_self entries key ordered
        (incomingOrdered (key, value) List.mem_cons_self))
      fun entry member => incomingOrdered entry (List.mem_cons_of_mem _ member)

theorem ordered_of_find? {entries : Entries Tree} (ordered : OrderedEntries entries) {key : String}
    {value : Tree} (found : entries.find? key = some value) : value.Ordered :=
  ((orderedEntries_iff entries).mp ordered).2 (key, value) (Entries.mem_of_find? found)

theorem orderedEntries_insertMerged {entries : Entries Tree} (ordered : OrderedEntries entries)
    (key : String) {value : Tree} (valueOrdered : value.Ordered) :
    OrderedEntries (insertMerged entries key value) := by
  induction value using Tree.induction generalizing entries key with
  | null => exact orderedEntries_put ordered key valueOrdered
  | bool _ => exact orderedEntries_put ordered key valueOrdered
  | int _ => exact orderedEntries_put ordered key valueOrdered
  | float _ => exact orderedEntries_put ordered key valueOrdered
  | text _ => exact orderedEntries_put ordered key valueOrdered
  | list _ _ => exact orderedEntries_put ordered key valueOrdered
  | object incoming ih =>
    rw [insertMerged]
    split
    · next existing found =>
      refine orderedEntries_put ordered key ?_
      exact orderedEntries_mergeAll_of
        (fun entry member entries key ordered valueOrdered =>
          ih entry member ordered key valueOrdered)
        (ordered_of_find? ordered found) ((ordered_object_iff incoming).mp valueOrdered).2
    · exact orderedEntries_put ordered key valueOrdered

theorem orderedEntries_mergeAll {entries incoming : Entries Tree}
    (ordered : OrderedEntries entries) (incomingOrdered : ∀ entry ∈ incoming, entry.2.Ordered) :
    OrderedEntries (mergeAll entries incoming) :=
  orderedEntries_mergeAll_of
    (fun _ _ _ key ordered valueOrdered => orderedEntries_insertMerged ordered key valueOrdered)
    ordered incomingOrdered

/-! ### Ordering a tree -/

mutual

/-- The tree with the entries of every object in order; of two entries with one key the later one
counts. -/
def canonical : Tree → Tree
  | .list items => .list (canonicalItems items)
  | .object entries => .object (canonicalEntries entries [])
  | tree => tree

/-- Order every item. -/
def canonicalItems : List Tree → List Tree
  | [] => []
  | item :: rest => canonical item :: canonicalItems rest

/-- Put ordered entries one after another into `done`. -/
def canonicalEntries : List (String × Tree) → Entries Tree → Entries Tree
  | [], done => done
  | (key, value) :: rest, done => canonicalEntries rest (done.put key (canonical value))

end

theorem ordered_canonical (tree : Tree) : tree.canonical.Ordered := by
  induction tree using Tree.induction with
  | null => trivial
  | bool _ => trivial
  | int _ => trivial
  | float _ => trivial
  | text _ => trivial
  | list items ih =>
    rw [canonical, Ordered]
    induction items with
    | nil => trivial
    | cons item rest rest_ih =>
      exact ⟨ih item List.mem_cons_self,
        rest_ih fun item member => ih item (List.mem_cons_of_mem _ member)⟩
  | object entries ih =>
    rw [canonical, Ordered]
    have start : OrderedEntries [] := trivial
    revert start
    generalize ([] : Entries Tree) = done
    intro start
    induction entries generalizing done with
    | nil => exact start
    | cons entry rest rest_ih =>
      obtain ⟨key, value⟩ := entry
      exact rest_ih (fun entry member => ih entry (List.mem_cons_of_mem _ member)) _
        (orderedEntries_put start key (ih (key, value) List.mem_cons_self))

end Gatehouse.Tree
