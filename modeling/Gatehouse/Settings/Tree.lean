/-
**Configuration trees.**

The value of a configuration document: null, truth values, numbers, texts, lists, and objects whose
entries are in ascending order of their keys at every depth.

* `Tree.induction`: to show something of all trees, show it of lists and objects whose members
  have it;
* `Tree.Ordered`: the order of keys at every depth, and `Tree.ordered_object_iff`.
-/

import Gatehouse.Table
import Gatehouse.Number.Shortest

namespace Gatehouse

/-- A configuration tree. -/
inductive Tree where
  | null
  | bool (value : Bool)
  | int (value : Int)
  | float (value : Binary64)
  | text (value : String)
  | list (items : List Tree)
  | object (entries : List (String × Tree))
deriving Inhabited

namespace Tree

/-- Induction over trees, with the members of lists and objects as the smaller trees. -/
theorem induction {motive : Tree → Prop} (null : motive .null)
    (bool : ∀ value, motive (.bool value)) (int : ∀ value, motive (.int value))
    (float : ∀ value, motive (.float value)) (text : ∀ value, motive (.text value))
    (list : ∀ items, (∀ item ∈ items, motive item) → motive (.list items))
    (object : ∀ entries : Entries Tree, (∀ entry ∈ entries, motive entry.2) →
      motive (.object entries)) (tree : Tree) : motive tree := by
  refine Tree.rec (motive_1 := motive) (motive_2 := fun items => ∀ item ∈ items, motive item)
    (motive_3 := fun entries => ∀ entry ∈ entries, motive entry.2)
    (motive_4 := fun entry => motive entry.2) null bool int float text list object
    ?_ ?_ ?_ ?_ ?_ tree
  · intro item member; cases member
  · intro head rest headHolds restHolds item member
    rcases List.mem_cons.mp member with here | there
    · exact here ▸ headHolds
    · exact restHolds item there
  · intro entry member; cases member
  · intro head rest headHolds restHolds entry member
    rcases List.mem_cons.mp member with here | there
    · exact here ▸ headHolds
    · exact restHolds entry there
  · intro _ value holds; exact holds

/-! ### Equality -/

mutual

/-- Whether two trees are the same. -/
def same : Tree → Tree → Bool
  | .null, .null => true
  | .bool first, .bool second => first == second
  | .int first, .int second => first == second
  | .float first, .float second => first == second
  | .text first, .text second => first == second
  | .list first, .list second => sameItems first second
  | .object first, .object second => sameEntries first second
  | _, _ => false

/-- Whether two lists hold the same trees. -/
def sameItems : List Tree → List Tree → Bool
  | [], [] => true
  | first :: others, second :: rest => same first second && sameItems others rest
  | _, _ => false

/-- Whether two objects hold the same entries. -/
def sameEntries : List (String × Tree) → List (String × Tree) → Bool
  | [], [] => true
  | (name, first) :: others, (name', second) :: rest =>
    name == name' && same first second && sameEntries others rest
  | _, _ => false

end

theorem same_iff (first second : Tree) : same first second = true ↔ first = second := by
  induction first using Tree.induction generalizing second with
  | null => cases second <;> simp [same]
  | bool value => cases second <;> simp [same]
  | int value => cases second <;> simp [same]
  | float value => cases second <;> simp [same]
  | text value => cases second <;> simp [same]
  | list items ih =>
    cases second <;> simp only [same, Tree.list.injEq, reduceCtorEq, Bool.false_eq_true]
    next others =>
      induction items generalizing others with
      | nil => cases others <;> simp [sameItems]
      | cons head rest rest_ih =>
        cases others with
        | nil => simp [sameItems]
        | cons head' rest' =>
          have heads := ih head List.mem_cons_self head'
          have rests := rest_ih (fun item member => ih item (List.mem_cons_of_mem _ member)) rest'
          simp [sameItems, heads, rests]
  | object entries ih =>
    cases second <;> simp only [same, Tree.object.injEq, reduceCtorEq, Bool.false_eq_true]
    next others =>
      induction entries generalizing others with
      | nil => cases others <;> simp [sameEntries]
      | cons head rest rest_ih =>
        obtain ⟨name, value⟩ := head
        cases others with
        | nil => simp [sameEntries]
        | cons head' rest' =>
          obtain ⟨name', value'⟩ := head'
          have heads := ih (name, value) List.mem_cons_self value'
          have rests := rest_ih (fun item member => ih item (List.mem_cons_of_mem _ member)) rest'
          simp only at heads
          simp [sameEntries, heads, rests, and_assoc]

instance : DecidableEq Tree := fun first second =>
  decidable_of_iff (same first second = true) (same_iff first second)

/-! ### Order of keys -/

mutual

/-- The keys of every object in the tree ascend. -/
def Ordered : Tree → Prop
  | .list items => OrderedItems items
  | .object entries => OrderedEntries entries
  | _ => True

/-- Every item is an ordered tree. -/
def OrderedItems : List Tree → Prop
  | [] => True
  | item :: rest => item.Ordered ∧ OrderedItems rest

/-- The keys ascend and every value is an ordered tree. -/
def OrderedEntries : List (String × Tree) → Prop
  | [] => True
  | (key, value) :: rest =>
    (∀ entry ∈ rest, key < entry.1) ∧ value.Ordered ∧ OrderedEntries rest

end

theorem orderedItems_iff (items : List Tree) :
    OrderedItems items ↔ ∀ item ∈ items, item.Ordered := by
  induction items with
  | nil => simp [OrderedItems]
  | cons item rest ih => simp [OrderedItems, ih]

theorem orderedEntries_iff (entries : Entries Tree) :
    OrderedEntries entries ↔ entries.Ascending ∧ ∀ entry ∈ entries, entry.2.Ordered := by
  induction entries with
  | nil => simp [OrderedEntries, Entries.Ascending]
  | cons entry rest ih =>
    obtain ⟨key, value⟩ := entry
    simp only [OrderedEntries, ih, Entries.Ascending, List.pairwise_cons, List.mem_cons,
      forall_eq_or_imp]
    constructor
    · rintro ⟨before, first, later, others⟩; exact ⟨⟨before, later⟩, first, others⟩
    · rintro ⟨⟨before, later⟩, first, others⟩; exact ⟨before, first, later, others⟩

/-- An object is ordered when its keys ascend and its values are ordered. -/
theorem ordered_object_iff (entries : Entries Tree) :
    (Tree.object entries).Ordered ↔ entries.Ascending ∧ ∀ entry ∈ entries, entry.2.Ordered := by
  rw [Ordered, orderedEntries_iff]

theorem ordered_list_iff (items : List Tree) :
    (Tree.list items).Ordered ↔ ∀ item ∈ items, item.Ordered := by
  rw [Ordered, orderedItems_iff]

/-- Putting an ordered tree into an ordered object keeps it ordered. -/
theorem orderedEntries_put {entries : Entries Tree} (ordered : OrderedEntries entries)
    (key : String) {value : Tree} (valueOrdered : value.Ordered) :
    OrderedEntries (entries.put key value) := by
  rw [orderedEntries_iff] at ordered ⊢
  refine ⟨Entries.ascending_put ordered.1 key value, fun entry member => ?_⟩
  rcases Entries.mem_put member with new | old
  · exact new ▸ valueOrdered
  · exact ordered.2 entry old

/-! ### Parts of a tree -/

/-- The entries of an object; any other tree has none. -/
def members : Tree → Entries Tree
  | .object entries => entries
  | _ => []

theorem ordered_of_mem_members {tree : Tree} (ordered : tree.Ordered) :
    ∀ entry ∈ tree.members, entry.2.Ordered := by
  cases tree with
  | object entries => exact ((ordered_object_iff entries).mp ordered).2
  | _ => intro entry member; cases member

/-- The text of a scalar: a text itself, a number in digits, `true` or `false`. -/
def scalarText? : Tree → Option String
  | .text value => some value
  | .int value => some (toString value)
  | .float value => some value.toText
  | .bool value => some (if value then "true" else "false")
  | _ => none

end Tree

end Gatehouse
