/-
**Groups as settings below a path.**

An object stands for the group of its whole key, a leaf under a dotted key for that of the first
segment. So an object under a dotted key is lost to the group of its first segment; without such
objects a group is what lies below its name.

* `Tree.Names`: which group an entry belongs to; `Tree.isJoined`: an object under a dotted key;
* `Settings.contains_groups_iff`: which groups there are;
* **`Settings.group_eq_under`**: a group is what lies below its name, but for the joined objects;
* `Settings.contains_groups_iff_at`: the groups by what stands in the whole settings.
-/

import Gatehouse.Settings.Groups
import Gatehouse.Proofs.Settings.Below

namespace Gatehouse

namespace Tree

open Gatehouse.Path (segments segmentsOf Proper)

/-- Whether a tree is an object. -/
def isObject : Tree → Bool
  | .object _ => true
  | _ => false

theorem isObject_iff {tree : Tree} : tree.isObject = true ↔ ∃ entries, tree = .object entries := by
  cases tree <;> simp [isObject]

theorem members_of_not_object {tree : Tree} (leaf : tree.isObject = false) : tree.members = [] := by
  cases tree with
  | object entries => cases leaf
  | _ => rfl

/-- An object under a dotted key is a group of its own, and no part of that of the first segment. -/
def isJoined (entry : String × Tree) : Bool := entry.2.isObject && entry.1.toList.contains '.'

theorem isJoined_eq_false_iff {entry : String × Tree} :
    isJoined entry = false ↔ (entry.2.isObject = true → '.' ∉ entry.1.toList) := by
  unfold isJoined
  cases entry.2.isObject <;> simp

/-! ### One entry -/

/-- An entry belongs to the group of a name: an object by its whole key, any other value by the first
segment of a longer key. -/
inductive Names (name : String) : String × Tree → Prop
  | whole {value : Tree} (object : value.isObject = true) : Names name (name, value)
  | first {value : Tree} (rest : String) (dotless : '.' ∉ name.toList)
      (leaf : value.isObject = false) : Names name (name ++ "." ++ rest, value)

variable {groups : Entries Settings} {key name : String} {value : Tree}

/-- A name without dots is below no other one. -/
theorem below?_of_dotless (dotless : '.' ∉ name.toList) (ancestor : String) :
    Path.below? ancestor name = none := by
  cases below : Path.below? ancestor name with
  | none => rfl
  | some rest =>
    rw [Path.below?_eq_some_iff] at below
    subst below
    exact (dotless (by simp)).elim

/-- What one entry at the root adds below a name without dots. -/
theorem gatherEntries_singleton (dotless : '.' ∉ name.toList) (found : Entries Tree) :
    gatherEntries name "" [(key, value)] found =
      if key = name then mergeAll found value.members
      else match Path.below? name key with
        | some rest => insertMerged found rest value
        | none => found := by
  have place : Path.child "" key = key := if_pos rfl
  rw [gatherEntries, gatherEntries, place, below?_of_dotless dotless]
  rfl

theorem gatherEntries_cons (path here : String) (entry : String × Tree) (rest : Entries Tree)
    (found : Entries Tree) : gatherEntries path here (entry :: rest) found =
      gatherEntries path here rest (gatherEntries path here [entry] found) := by
  obtain ⟨key, value⟩ := entry
  rw [gatherEntries, gatherEntries, gatherEntries]

theorem groupOf_put (other : String) (group : Settings) :
    groupOf (groups.put other group) name = if name = other then group else groupOf groups name := by
  unfold groupOf
  rw [Entries.find?_put]
  split <;> rfl

/-- The first cut of a key is the one below its first segment. -/
theorem splitFirst?_eq_iff_below? {rest : String} (dotless : '.' ∉ name.toList) :
    Text.splitFirst? '.' key.toList = some (name.toList, rest.toList) ↔
      Path.below? name key = some rest := by
  rw [Text.splitFirst?_eq_some_iff, Path.below?_eq_some_iff, ← String.toList_inj]
  simp [dotless]

/-- The first cut of a key leaves two parts that a dot joins in the key. -/
theorem joined_of_splitFirst? {first rest : List Char}
    (cut : Text.splitFirst? '.' key.toList = some (first, rest)) :
    key = String.ofList first ++ "." ++ String.ofList rest ∧ '.' ∉ first := by
  obtain ⟨whole, dotless⟩ := Text.splitFirst?_eq_some_iff.mp cut
  refine ⟨?_, dotless⟩
  apply String.toList_inj.mp
  simp [whole]

/-- A leaf is put below the first segment of its key; without dots it is in no group. -/
theorem addToGroup_of_leaf (leaf : value.isObject = false) (ordered : value.Ordered) :
    addToGroup groups key value ordered =
      match Text.splitFirst? '.' key.toList with
      | none => groups
      | some (first, rest) =>
        groups.put (String.ofList first)
          ⟨insertMerged (groupOf groups (String.ofList first)).entries (String.ofList rest) value,
            orderedEntries_insertMerged (groupOf groups (String.ofList first)).ordered _ ordered⟩ := by
  cases value with
  | object children => cases leaf
  | _ => rfl

theorem addToGroup_object {children : Entries Tree} (ordered : (Tree.object children).Ordered) :
    addToGroup groups key (.object children) ordered = groups.put key
      ⟨mergeAll (groupOf groups key).entries children, orderedEntries_mergeAll
        (groupOf groups key).ordered ((ordered_object_iff children).mp ordered).2⟩ := rfl

/-- A joined object adds nothing to the group of a name without dots. -/
theorem groupOf_addToGroup_of_joined (dotless : '.' ∉ name.toList) (ordered : value.Ordered)
    (joined : isJoined (key, value) = true) :
    groupOf (addToGroup groups key value ordered) name = groupOf groups name := by
  obtain ⟨object, dotted⟩ := Bool.and_eq_true_iff.mp joined
  obtain ⟨children, rfl⟩ := isObject_iff.mp object
  have different : name ≠ key := by
    rintro rfl
    exact dotless (by simpa using dotted)
  rw [addToGroup_object, groupOf_put, if_neg different]

/-- **Any other entry adds to the group of a name what it holds below this name.** -/
theorem groupOf_addToGroup (dotless : '.' ∉ name.toList) (ordered : value.Ordered)
    (unjoined : isJoined (key, value) = false) :
    (groupOf (addToGroup groups key value ordered) name).entries =
      gatherEntries name "" [(key, value)] (groupOf groups name).entries := by
  rw [gatherEntries_singleton dotless]
  cases object : value.isObject with
  | true =>
    have dotlessKey := isJoined_eq_false_iff.mp unjoined object
    obtain ⟨children, rfl⟩ := isObject_iff.mp object
    rw [addToGroup_object, groupOf_put]
    by_cases same : name = key
    · subst same
      rw [if_pos rfl, if_pos rfl]
      rfl
    · rw [if_neg same, if_neg (Ne.symm same), below?_of_dotless dotlessKey]
  | false =>
    rw [addToGroup_of_leaf object]
    cases below : Path.below? name key with
    | some rest =>
      have joined : key ≠ name := by
        rw [Path.below?_eq_some_iff.mp below]
        exact Path.joined_ne name rest
      simp only [(splitFirst?_eq_iff_below? dotless).mpr below, if_neg joined, groupOf_put,
        String.ofList_toList, if_true]
    | none =>
      rw [members_of_not_object object, mergeAll, ite_self]
      cases cut : Text.splitFirst? '.' key.toList with
      | none => rfl
      | some parts =>
        obtain ⟨first, rest⟩ := parts
        have different : name ≠ String.ofList first := by
          rintro rfl
          have joined : Path.below? (String.ofList first) key = some (String.ofList rest) :=
            (splitFirst?_eq_iff_below? dotless).mp (by
              rw [cut, String.toList_ofList, String.toList_ofList])
          rw [below] at joined
          cases joined
        simp only [groupOf_put, if_neg different]

theorem names_iff_of_object (object : value.isObject = true) :
    Names name (key, value) ↔ name = key := by
  constructor
  · intro names
    cases names with
    | whole => rfl
    | first rest dotless leaf => rw [object] at leaf; cases leaf
  · rintro rfl
    exact .whole object

theorem names_iff_of_leaf (leaf : value.isObject = false) :
    Names name (key, value) ↔ '.' ∉ name.toList ∧ ∃ rest, key = name ++ "." ++ rest := by
  constructor
  · intro names
    cases names with
    | whole object => rw [leaf] at object; cases object
    | first rest dotless _ => exact ⟨dotless, rest, rfl⟩
  · rintro ⟨dotless, rest, rfl⟩
    exact .first rest dotless leaf

/-- One entry adds the group it belongs to. -/
theorem isSome_addToGroup_iff (ordered : value.Ordered) :
    ((addToGroup groups key value ordered).find? name).isSome = true ↔
      (groups.find? name).isSome = true ∨ Names name (key, value) := by
  have put : ∀ other group, ((groups.put other group).find? name).isSome = true ↔
      (groups.find? name).isSome = true ∨ name = other := by
    intro other group
    rw [Entries.find?_put]
    by_cases same : name = other
    · simp [same]
    · simp [same]
  cases object : value.isObject with
  | true =>
    obtain ⟨children, rfl⟩ := isObject_iff.mp object
    rw [names_iff_of_object object]
    exact put key _
  | false =>
    rw [names_iff_of_leaf object, addToGroup_of_leaf object]
    cases cut : Text.splitFirst? '.' key.toList with
    | none =>
      refine (or_iff_left ?_).symm
      rintro ⟨dotless, rest, joined⟩
      have found := (splitFirst?_eq_iff_below? dotless).mpr (Path.below?_eq_some_iff.mpr joined)
      rw [cut] at found
      cases found
    | some parts =>
      obtain ⟨first, rest⟩ := parts
      obtain ⟨joined, dotless⟩ := joined_of_splitFirst? cut
      refine (put _ _).trans (or_congr_right ?_)
      constructor
      · rintro rfl
        exact ⟨by rwa [String.toList_ofList], _, joined⟩
      · rintro ⟨dotlessName, other, joined'⟩
        have found :=
          (splitFirst?_eq_iff_below? dotlessName).mpr (Path.below?_eq_some_iff.mpr joined')
        rw [cut] at found
        cases found
        rw [String.ofList_toList]

/-! ### All entries -/

/-- The group of a name gathers what lies below this name, entry after entry. -/
theorem groupOf_groupAll (dotless : '.' ∉ name.toList) {entries : Entries Tree}
    (ordered : ∀ entry ∈ entries, entry.2.Ordered) (groups : Table Settings) :
    (groupOf (groupAll entries ordered groups).entries name).entries =
      gatherEntries name "" (entries.filter fun entry => !isJoined entry)
        (groupOf groups.entries name).entries := by
  induction entries generalizing groups with
  | nil => rw [groupAll, List.filter_nil, gatherEntries]
  | cons entry rest ih =>
    obtain ⟨key, value⟩ := entry
    rw [groupAll, ih, List.filter_cons]
    cases joined : isJoined (key, value) with
    | true =>
      rw [groupOf_addToGroup_of_joined dotless _ joined]
      rfl
    | false =>
      rw [groupOf_addToGroup dotless _ joined]
      exact (gatherEntries_cons _ _ _ _ _).symm

/-- There is a group of a name when an entry belongs to it. -/
theorem contains_groupAll_iff {entries : Entries Tree}
    (ordered : ∀ entry ∈ entries, entry.2.Ordered) (groups : Table Settings) :
    (groupAll entries ordered groups).contains name = true ↔
      groups.contains name = true ∨ ∃ entry ∈ entries, Names name entry := by
  induction entries generalizing groups with
  | nil => simp [groupAll]
  | cons entry rest ih =>
    obtain ⟨key, value⟩ := entry
    rw [groupAll, ih]
    unfold Table.contains Table.find?
    rw [isSome_addToGroup_iff]
    simp only [List.mem_cons, exists_eq_or_imp, or_assoc]

end Tree

/-! ### The groups below a path -/

namespace Settings

open Gatehouse.Path (segments segmentsOf Proper)

variable {settings : Settings} {path name : String}

theorem eq_of_entries {first second : Settings} (same : first.entries = second.entries) :
    first = second := by
  cases first
  cases second
  cases same
  rfl

/-- The settings without the objects under dotted keys at the top. -/
def unjoined (settings : Settings) : Settings where
  entries := settings.entries.filter fun entry => !Tree.isJoined entry
  ordered := by
    have ordered := (Tree.orderedEntries_iff _).mp settings.ordered
    refine (Tree.orderedEntries_iff _).mpr ⟨ordered.1.filter _, fun entry member => ?_⟩
    exact ordered.2 entry (List.mem_of_mem_filter member)

/-- No object stands under a dotted key at the top. -/
def Undivided (settings : Settings) : Prop := ∀ entry ∈ settings.entries, Tree.isJoined entry = false

instance (settings : Settings) : Decidable settings.Undivided := by
  unfold Undivided; infer_instance

theorem unjoined_eq (undivided : settings.Undivided) : settings.unjoined = settings := by
  apply eq_of_entries
  refine List.filter_eq_self.mpr fun entry member => ?_
  rw [undivided entry member]
  rfl

theorem ordered_toTree (settings : Settings) : settings.toTree.Ordered := settings.ordered

theorem find?_unjoined_iff {key : String} {value : Tree} :
    settings.unjoined.entries.find? key = some value ↔
      settings.entries.find? key = some value ∧ Tree.isJoined (key, value) = false := by
  constructor
  · intro found
    obtain ⟨inside, kept⟩ := List.mem_filter.mp (Entries.mem_of_find? found)
    refine ⟨(Tree.mem_members_iff settings.ordered_toTree).mp inside, ?_⟩
    rwa [Bool.not_eq_true'] at kept
  · rintro ⟨found, kept⟩
    refine (Tree.mem_members_iff settings.unjoined.ordered_toTree).mp (List.mem_filter.mpr ?_)
    exact ⟨Entries.mem_of_find? found, by rw [kept]; rfl⟩

/-- Leaving out the joined objects leaves out the ways through them. -/
theorem follow_unjoined_iff {key : String} {rest : List String} {value : Tree} :
    settings.unjoined.toTree.follow (key :: rest) = some value ↔
      ∃ child, settings.entries.find? key = some child ∧ Tree.isJoined (key, child) = false ∧
        child.follow rest = some value := by
  rw [Tree.follow_cons_eq_some_iff]
  refine exists_congr fun child => ?_
  rw [← and_assoc, ← find?_unjoined_iff]
  rfl

theorem follow_of_unjoined {keys : List String} (nonempty : keys ≠ []) {value : Tree}
    (followed : settings.unjoined.toTree.follow keys = some value) :
    settings.toTree.follow keys = some value := by
  cases keys with
  | nil => exact (nonempty rfl).elim
  | cons key rest =>
    obtain ⟨child, found, _, onward⟩ := follow_unjoined_iff.mp followed
    exact Tree.follow_cons_eq_some_iff.mpr ⟨child, found, onward⟩

theorem clear_unjoined (clear : settings.toTree.Clear) : settings.unjoined.toTree.Clear := by
  have still : ∀ {keys}, (settings.unjoined.toTree.follow keys).isSome = true →
      (settings.toTree.follow keys).isSome = true := by
    intro keys reached
    by_cases empty : keys = []
    · rw [empty]
      rfl
    · obtain ⟨value, followed⟩ := Option.isSome_iff_exists.mp reached
      rw [follow_of_unjoined empty followed]
      rfl
  exact ⟨settings.unjoined.ordered, fun left right => clear.unique (still left) (still right),
    fun reached => clear.proper (still reached)⟩

/-- **A group is what lies below its name**, but for the joined objects. -/
theorem group_eq_under (dotless : '.' ∉ name.toList) (named : name ≠ "") {group : Settings}
    (found : (settings.groups path).find? name = some group) :
    group = (settings.under path).unjoined.under name := by
  have held : Tree.groupOf (settings.groups path).entries name = group := by
    unfold Tree.groupOf
    rw [show (settings.groups path).entries.find? name = some group from found]
    rfl
  have gathered : group.entries =
      Tree.gatherEntries name "" (settings.under path).unjoined.entries [] := by
    rw [← held]
    exact Tree.groupOf_groupAll dotless _ Table.empty
  apply eq_of_entries
  rw [gathered, under.eq_def _ name, if_neg named]

/-- There is a group of a name when an entry below the path belongs to it. -/
theorem contains_groups_iff : (settings.groups path).contains name = true ↔
    ∃ entry ∈ (settings.under path).entries, Tree.Names name entry := by
  unfold groups
  rw [Tree.contains_groupAll_iff]
  simp [Table.contains]

theorem contains_of_find? {group : Settings}
    (found : (settings.groups path).find? name = some group) :
    (settings.groups path).contains name = true := by
  unfold Table.contains
  rw [found]
  rfl

/-- The groups of clear settings have names without empty segments. -/
theorem proper_of_contains_groups (clear : settings.toTree.Clear) (proper : Proper path)
    (contained : (settings.groups path).contains name = true) : Proper name := by
  obtain ⟨⟨key, value⟩, member, names⟩ := contains_groups_iff.mp contained
  have underClear := clear_under clear proper
  have found := (Tree.mem_members_iff underClear.ordered).mp member
  have reached : ((settings.under path).toTree.follow [key]).isSome = true := by
    rw [Tree.follow_cons, found]
    rfl
  have properKey : Proper key := by
    have further := underClear.proper reached
    rwa [Path.segmentsOf_cons, Path.segmentsOf_nil, List.append_nil] at further
  cases names with
  | whole object => exact properKey
  | first rest dotless leaf => exact (Path.proper_append_iff.mp properKey).1

/-- Settings are undivided exactly when all their groups have names without dots. -/
theorem undivided_iff : (settings.under path).Undivided ↔
    ∀ name, (settings.groups path).contains name = true → '.' ∉ name.toList := by
  constructor
  · intro undivided name contained
    obtain ⟨entry, member, names⟩ := contains_groups_iff.mp contained
    cases names with
    | whole object => exact Tree.isJoined_eq_false_iff.mp (undivided _ member) object
    | first rest dotless leaf => exact dotless
  · intro dotless entry member
    refine Tree.isJoined_eq_false_iff.mpr fun object => ?_
    exact dotless entry.1 (contains_groups_iff.mpr ⟨entry, member, .whole object⟩)

/-- A group of undivided settings is there when something stands below its name, or an object there
itself. -/
theorem contains_groups_iff_at (clear : settings.toTree.Clear) (proper : Proper path)
    (undivided : (settings.under path).Undivided) (dotless : '.' ∉ name.toList) :
    (settings.groups path).contains name = true ↔
      ∃ pieces value, settings.toTree.At (segments path ++ name.toList :: pieces) value ∧
        (pieces = [] → value.isObject = true) := by
  have single : segments name = [name.toList] := Path.segments_of_dotless dotless
  have below : ∀ pieces value, (settings.under path).toTree.At (name.toList :: pieces) value ↔
      settings.toTree.At (segments path ++ name.toList :: pieces) value :=
    fun pieces value => at_under_iff clear proper (List.cons_ne_nil _ _)
  have underClear := clear_under clear proper
  rw [contains_groups_iff]
  constructor
  · rintro ⟨⟨key, value⟩, member, names⟩
    have found := (Tree.mem_members_iff underClear.ordered).mp member
    have stands : (settings.under path).toTree.At (segments key) value :=
      ⟨[key], by simp, Tree.follow_cons_eq_some_iff.mpr ⟨value, found, rfl⟩⟩
    cases names with
    | whole object => exact ⟨[], value, (below _ _).mp (single ▸ stands), fun _ => object⟩
    | first rest _ leaf =>
      rw [Path.segments_append, single] at stands
      exact ⟨segments rest, value, (below _ _).mp stands, fun empty =>
        (Path.segments_ne_nil rest empty).elim⟩
  · rintro ⟨pieces, value, stands, object⟩
    obtain ⟨keys, spelled, followed⟩ := (below _ _).mpr stands
    cases keys with
    | nil => cases spelled
    | cons key after =>
      obtain ⟨child, found, onward⟩ := Tree.follow_cons_eq_some_iff.mp followed
      have member := Entries.mem_of_find? found
      rw [Path.segmentsOf_cons] at spelled
      refine ⟨(key, child), member, ?_⟩
      obtain ⟨first, more, shape⟩ := List.exists_cons_of_ne_nil (Path.segments_ne_nil key)
      rw [shape, List.cons_append, List.cons.injEq] at spelled
      obtain ⟨rfl, remaining⟩ := spelled
      by_cases last : more = []
      · -- the key is the name itself, and an object stands under it
        subst last
        obtain rfl : key = name := Path.segments_inj.mp (shape.trans single.symm)
        refine .whole ?_
        cases leaf : child.isObject with
        | true => rfl
        | false =>
          obtain rfl := Tree.follow_of_no_members (Tree.members_of_not_object leaf) onward
          cases onward
          rw [← leaf, object remaining.symm]
      · -- the name is the first segment of a longer key, which no object has
        obtain ⟨rest, same⟩ := Path.exists_suffix last (shape.trans (List.singleton_append).symm)
        obtain rfl : key = name ++ "." ++ rest := by
          rw [← Path.segments_inj, Path.segments_append, shape, single, same]
          rfl
        refine .first rest dotless ?_
        cases object : child.isObject with
        | false => rfl
        | true =>
          have dotlessKey := Tree.isJoined_eq_false_iff.mp (undivided _ member) object
          exact (dotlessKey (by simp)).elim

end Settings

end Gatehouse
