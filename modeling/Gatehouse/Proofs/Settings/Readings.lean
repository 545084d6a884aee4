/-
**What settings say in any spelling.**

Two settings have the same surface when typed readings of them agree at every path. The spellings of
a plain document have the same surface, and so has whatever lies below a path of them. Their groups
agree as long as no object stands under a dotted key, where it would be a group of its own.

* `Settings.read_eq`, with `text?_eq`, `flag_eq`, `integer_eq`: what readings see;
* `Settings.SameSurface`, and `SameSurface.under`: what lies below a path;
* `Settings.surface_group_member`: the members of a group in the whole settings;
* `Settings.Spells`, `Settings.spells_of_plain`: a clear document and a spelling of it;
* **`Settings.Spells.contains_groups_iff`**, `sameSurface_group`: the groups of a spelling.
-/

import Gatehouse.Proofs.Settings.Spelling

namespace Gatehouse

/-! ### Plain documents -/

namespace Tree

open Gatehouse.Path (segments segmentsOf Proper)

mutual

/-- No key of an object is empty or has a dot. Lists have no paths through them and may hold
anything. -/
def isPlain : Tree → Bool
  | .object entries => plainEntries entries
  | _ => true

/-- The same for the entries of an object. -/
def plainEntries : List (String × Tree) → Bool
  | [] => true
  | (key, value) :: rest =>
    key ≠ "" && !key.toList.contains '.' && isPlain value && plainEntries rest

end

theorem plainEntries_iff (entries : Entries Tree) : plainEntries entries = true ↔
    ∀ entry ∈ entries, entry.1 ≠ "" ∧ '.' ∉ entry.1.toList ∧ entry.2.isPlain = true := by
  induction entries with
  | nil => simp [plainEntries]
  | cons entry rest ih =>
    obtain ⟨key, value⟩ := entry
    simp [plainEntries, ih, and_assoc]

theorem plain_of_find? {tree value : Tree} (plain : tree.isPlain = true) {key : String}
    (found : Entries.find? key tree.members = some value) :
    key ≠ "" ∧ '.' ∉ key.toList ∧ value.isPlain = true := by
  cases tree with
  | object entries =>
    exact (plainEntries_iff entries).mp plain (key, value) (Entries.mem_of_find? found)
  | _ => cases found

/-- In a plain tree a way is spelled by its keys as they are. -/
theorem segmentsOf_of_plain {tree value : Tree} (plain : tree.isPlain = true) {keys : List String}
    (followed : tree.follow keys = some value) :
    segmentsOf keys = keys.map String.toList ∧ ∀ key ∈ keys, key ≠ "" := by
  induction keys generalizing tree with
  | nil => exact ⟨rfl, fun key member => by cases member⟩
  | cons key rest ih =>
    obtain ⟨child, found, onward⟩ := follow_cons_eq_some_iff.mp followed
    obtain ⟨named, dotless, plainChild⟩ := plain_of_find? plain found
    obtain ⟨spelled, others⟩ := ih plainChild onward
    refine ⟨?_, fun other member => ?_⟩
    · rw [Path.segmentsOf_cons, Path.segments_of_dotless dotless, spelled]
      rfl
    · rcases List.mem_cons.mp member with rfl | later
      · exact named
      · exact others other later

/-- A plain document is clear. -/
theorem clear_of_plain {tree : Tree} (ordered : tree.Ordered) (plain : tree.isPlain = true) :
    tree.Clear := by
  refine ⟨ordered, fun {first second} left right same => ?_, fun {keys} reached member => ?_⟩
  · obtain ⟨_, followed⟩ := Option.isSome_iff_exists.mp left
    obtain ⟨_, followed'⟩ := Option.isSome_iff_exists.mp right
    rw [(segmentsOf_of_plain plain followed).1, (segmentsOf_of_plain plain followed').1] at same
    exact List.map_injective_iff.mpr (fun _ _ => String.toList_inj.mp) same
  · obtain ⟨_, followed⟩ := Option.isSome_iff_exists.mp reached
    obtain ⟨spelled, named⟩ := segmentsOf_of_plain plain followed
    rw [spelled] at member
    obtain ⟨key, inside, empty⟩ := List.mem_map.mp member
    exact named key inside (String.toList_inj.mp empty)

/-- What crosses a path of a plain tree does so with a key of one segment. -/
theorem Crosses.dotless {tree value : Tree} {within : List (List Char)} {rest : String}
    (crosses : Crosses tree within rest value) (plain : tree.isPlain = true) : '.' ∉ rest.toList := by
  induction crosses with
  | @here tree value within key rest found beyond =>
    obtain ⟨_, dotless, _⟩ := plain_of_find? plain found
    rw [Path.segments_of_dotless dotless] at beyond
    rcases List.append_eq_singleton_iff.mp beyond.symm with ⟨_, single⟩ | ⟨_, empty⟩
    · exact Path.dotless_of_segments_eq single
    · exact (Path.segments_ne_nil rest empty).elim
  | inside found _ ih => exact ih (plain_of_find? plain found).2.2

/-- Every tree has a value without members. -/
theorem exists_bare (tree : Tree) :
    ∃ keys leaf, tree.follow keys = some leaf ∧ leaf.members = [] := by
  induction tree using Tree.induction with
  | object entries ih =>
    cases entries with
    | nil => exact ⟨[], .object [], rfl, rfl⟩
    | cons entry rest =>
      obtain ⟨key, value⟩ := entry
      obtain ⟨keys, leaf, followed, bare⟩ := ih (key, value) List.mem_cons_self
      have found : Entries.find? key ((key, value) :: rest) = some value := by
        rw [Entries.find?, if_pos rfl]
      exact ⟨key :: keys, leaf, follow_cons_eq_some_iff.mpr ⟨value, found, followed⟩, bare⟩
  | _ => exact ⟨[], _, rfl, rfl⟩

end Tree

namespace Settings

open Gatehouse.Path (segments segmentsOf Proper)

/-! ### Typed readings -/

/-- A reading that looks at the surface alone reads the same where the surface is the same. -/
theorem read_eq {β : Type} {read : Option Tree → β}
    (sees : ∀ tree : Tree, read tree.surface = read (some tree)) : ∀ found other : Option Tree,
    found.bind Tree.surface = other.bind Tree.surface → read found = read other := by
  have surface : ∀ found : Option Tree, read (found.bind Tree.surface) = read found := by
    intro found
    cases found with
    | none => rfl
    | some tree => exact sees tree
  intro found other same
  rw [← surface found, same, surface]

section Surface

variable {first second : Settings} {path : String}
  (same : (first.get? path).bind Tree.surface = (second.get? path).bind Tree.surface)

include same

theorem text?_eq : first.text? path = second.text? path := by
  unfold text?
  revert same
  generalize first.get? path = found, second.get? path = other
  revert found other
  exact read_eq fun tree => by cases tree <;> rfl

theorem flag_eq (default : Bool) : first.flag path default = second.flag path default := by
  unfold flag
  revert same
  generalize first.get? path = found, second.get? path = other
  revert found other
  exact read_eq fun tree => by cases tree <;> rfl

theorem integer_eq (default : Int) : first.integer path default = second.integer path default := by
  unfold integer
  revert same
  generalize first.get? path = found, second.get? path = other
  revert found other
  exact read_eq fun tree => by cases tree <;> rfl

end Surface

/-- Typed readings of two settings see the same at every path. -/
def SameSurface (first second : Settings) : Prop :=
  ∀ path, Proper path → (first.get? path).bind Tree.surface = (second.get? path).bind Tree.surface

/-- What lies below a path of clear settings with one surface has one surface. -/
theorem SameSurface.under {first second : Settings} (same : SameSurface first second)
    {path : String} (proper : Proper path) (clear : first.toTree.Clear)
    (clear' : second.toTree.Clear) : SameSurface (first.under path) (second.under path) := by
  intro rest properRest
  rw [get?_under clear proper properRest, get?_under clear' proper properRest]
  exact same _ (Path.proper_append_iff.mpr ⟨proper, properRest⟩)

/-- A leaf with a path of two segments does not lie behind a joined object. -/
theorem at_unjoined_of_leaf {settings : Settings} {first second : List Char} {value : Tree}
    (stands : settings.toTree.At [first, second] value) (leaf : value.isObject = false) :
    settings.unjoined.toTree.At [first, second] value := by
  obtain ⟨keys, spelled, followed⟩ := stands
  cases keys with
  | nil => cases spelled
  | cons key rest =>
    obtain ⟨child, found, onward⟩ := Tree.follow_cons_eq_some_iff.mp followed
    refine ⟨key :: rest, spelled, follow_unjoined_iff.mpr ⟨child, found, ?_, onward⟩⟩
    refine Tree.isJoined_eq_false_iff.mpr fun object => ?_
    have nonempty : rest ≠ [] := by
      rintro rfl
      cases onward
      rw [leaf] at object
      cases object
    obtain ⟨segment, more, shape⟩ := List.exists_cons_of_ne_nil (Path.segments_ne_nil key)
    rw [Path.segmentsOf_cons, shape, List.cons_append, List.cons.injEq] at spelled
    rcases List.append_eq_singleton_iff.mp spelled.2 with ⟨empty, _⟩ | ⟨_, empty⟩
    · rw [empty] at shape
      exact Path.dotless_of_segments_eq shape
    · exact (nonempty (Path.segmentsOf_eq_nil_iff.mp empty)).elim

/-- **The members of a group read as in the whole settings**, whatever objects are joined. -/
theorem surface_group_member {settings : Settings} (clear : settings.toTree.Clear) {path : String}
    (proper : Proper path) {name member : String} (dotless : '.' ∉ name.toList)
    (single : '.' ∉ member.toList) (properMember : Proper member) {group : Settings}
    (found : (settings.groups path).find? name = some group) :
    (group.get? member).bind Tree.surface =
      (settings.get? (path ++ "." ++ (name ++ "." ++ member))).bind Tree.surface := by
  have properName : Proper name :=
    proper_of_contains_groups clear proper (contains_of_find? found)
  have properBoth := Path.proper_append_iff.mpr ⟨properName, properMember⟩
  have underClear := clear_under clear proper
  have restClear := clear_unjoined underClear
  rw [group_eq_under dotless (Path.ne_empty_of_proper properName) found,
    get?_under restClear properName properMember, ← get?_under clear proper properBoth]
  have spelled : segments (name ++ "." ++ member) = [name.toList, member.toList] := by
    rw [Path.segments_append, Path.segments_of_dotless dotless, Path.segments_of_dotless single]
    rfl
  have kept : ∀ value, (settings.under path).unjoined.get? (name ++ "." ++ member) = some value →
      (settings.under path).get? (name ++ "." ++ member) = some value := by
    intro value held
    obtain ⟨keys, same, followed⟩ := (get?_eq_some_iff restClear properBoth).mp held
    have nonempty : keys ≠ [] := by
      rintro rfl
      exact Path.segments_ne_nil _ same.symm
    exact (get?_eq_some_iff underClear properBoth).mpr
      ⟨keys, same, follow_of_unjoined nonempty followed⟩
  cases held : (settings.under path).unjoined.get? (name ++ "." ++ member) with
  | some value => rw [kept value held]
  | none =>
    cases whole : (settings.under path).get? (name ++ "." ++ member) with
    | none => rfl
    | some value =>
      -- only objects are lost, which no typed reading sees
      cases object : value.isObject with
      | true => exact (Tree.surface_eq_none_iff.mpr object).symm
      | false =>
        have stands := (get?_eq_some_iff underClear properBoth).mp whole
        rw [spelled] at stands
        have there := at_unjoined_of_leaf stands object
        rw [← spelled, ← get?_eq_some_iff restClear properBoth, held] at there
        cases there

/-! ### Spellings -/

/-- Clear settings and a spelling of them. -/
structure Spells (nested collapsed : Settings) : Prop where
  clear : nested.toTree.Clear
  clearCollapsed : collapsed.toTree.Clear
  restores : ∃ restore, Tree.Restores restore nested.toTree collapsed.toTree

/-- A plain document and whatever is obtained from it by moving children up. -/
theorem spells_of_plain {nested collapsed : Settings} (plain : nested.toTree.isPlain = true)
    (steps : Relation.ReflTransGen Tree.Lifts nested.toTree collapsed.toTree) :
    Spells nested collapsed := by
  have clear := Tree.clear_of_plain nested.ordered_toTree plain
  obtain ⟨clearCollapsed, restores⟩ := Tree.exists_restores steps clear
  exact ⟨clear, clearCollapsed, restores⟩

/-- What lies below a path of a plain document is undivided. -/
theorem undivided_of_plain {settings : Settings} (plain : settings.toTree.isPlain = true)
    {path : String} (proper : Proper path) : (settings.under path).Undivided := by
  intro entry member
  have clear := Tree.clear_of_plain settings.ordered_toTree plain
  have found := (Tree.mem_members_iff (clear_under clear proper).ordered).mp member
  have dotless := ((find?_under_iff clear proper).mp found).dotless plain
  exact Tree.isJoined_eq_false_iff.mpr fun _ => dotless

namespace Spells

variable {nested collapsed : Settings} (spells : Spells nested collapsed) {path : String}
  (proper : Proper path)

include spells

theorem sameSurface : SameSurface collapsed nested := by
  intro path proper
  obtain ⟨restore, restores⟩ := spells.restores
  exact restores.surface_lookup spells.clear spells.clearCollapsed proper

include proper

/-- **The members of a group read the same in every spelling.** -/
theorem surface_group_member {name member : String} (dotless : '.' ∉ name.toList)
    (single : '.' ∉ member.toList) (properMember : Proper member) {group copy : Settings}
    (found : (nested.groups path).find? name = some group)
    (copied : (collapsed.groups path).find? name = some copy) :
    (copy.get? member).bind Tree.surface = (group.get? member).bind Tree.surface := by
  have properName := proper_of_contains_groups spells.clear proper (contains_of_find? found)
  rw [Settings.surface_group_member spells.clear proper dotless single properMember found,
    Settings.surface_group_member spells.clearCollapsed proper dotless single properMember copied]
  refine spells.sameSurface _ ?_
  exact Path.proper_append_iff.mpr ⟨proper, Path.proper_append_iff.mpr ⟨properName, properMember⟩⟩

/-- **The groups of an undivided spelling have the same names.** -/
theorem contains_groups_iff (undivided : (nested.under path).Undivided)
    (undividedCollapsed : (collapsed.under path).Undivided) (name : String) :
    (collapsed.groups path).contains name = true ↔ (nested.groups path).contains name = true := by
  by_cases dotless : '.' ∉ name.toList
  swap
  · exact iff_of_false (fun contained => dotless (undivided_iff.mp undividedCollapsed name contained))
      fun contained => dotless (undivided_iff.mp undivided name contained)
  rw [contains_groups_iff_at spells.clear proper undivided dotless,
    contains_groups_iff_at spells.clearCollapsed proper undividedCollapsed dotless]
  obtain ⟨restore, restores⟩ := spells.restores
  constructor
  · rintro ⟨pieces, value, stands, object⟩
    obtain ⟨original, there, alike⟩ := restores.at_back stands
    exact ⟨pieces, original, there, fun empty => alike.isObject_eq.trans (object empty)⟩
  · rintro ⟨pieces, value, ⟨keys, spelled, followed⟩, object⟩
    -- an object may have gone, but not what lies at the end of the ways through it
    obtain ⟨after, leaf, onward, bare⟩ := Tree.exists_bare value
    have stands : nested.toTree.At
        (segments path ++ name.toList :: (pieces ++ segmentsOf after)) leaf := by
      refine ⟨keys ++ after, ?_, Tree.follow_append_eq_some_iff.mpr ⟨value, followed, onward⟩⟩
      rw [Path.segmentsOf_append, spelled, List.append_assoc, List.cons_append]
    obtain ⟨copy, there, alike⟩ := restores.at_forth stands bare
    refine ⟨_, copy, there, fun empty => ?_⟩
    obtain ⟨here, last⟩ := List.append_eq_nil_iff.mp empty
    obtain rfl := Path.segmentsOf_eq_nil_iff.mp last
    cases onward
    exact alike.isObject_eq.symm.trans (object here)

/-- **The groups of one name have the same surface** in an undivided spelling, and are clear. -/
theorem sameSurface_group (undivided : (nested.under path).Undivided)
    (undividedCollapsed : (collapsed.under path).Undivided) {name : String} {group copy : Settings}
    (found : (nested.groups path).find? name = some group)
    (copied : (collapsed.groups path).find? name = some copy) :
    SameSurface copy group ∧ copy.toTree.Clear ∧ group.toTree.Clear := by
  have contained := contains_of_find? found
  have dotless := undivided_iff.mp undivided name contained
  have named : Proper name := proper_of_contains_groups spells.clear proper contained
  have nonempty := Path.ne_empty_of_proper named
  rw [group_eq_under dotless nonempty found, group_eq_under dotless nonempty copied,
    unjoined_eq undivided, unjoined_eq undividedCollapsed]
  have clear := clear_under spells.clear proper
  have clearCollapsed := clear_under spells.clearCollapsed proper
  refine ⟨?_, clear_under clearCollapsed named, clear_under clear named⟩
  exact (spells.sameSurface.under proper spells.clearCollapsed spells.clear).under named
    clearCollapsed clear

end Spells

end Settings

end Gatehouse
