/-
**Settings divided into groups.**

What lies below a path comes into a group in three ways: inside an object under the name of the group,
inside an object whose key has dots, or as a leaf under a longer key that begins with the name. However
these are mixed, the groups of a coherent document divide up its leaves. A leaf with an undotted path
is in none of them; any other one is in one group, which finds it at the rest of its path, and nothing
else is in a group.

* `Path.Enters`: the way in a group and the way in the whole settings; `Path.Enters.unique`;
* `Tree.share`: what an entry brings to a group, `Tree.entries_groupAll`: a group merges all of it;
* `Settings.exists_of_follow_group`, `Settings.follow_group_of_enters`: the ways in a group;
* **`Settings.leaf_ungrouped_or_in_one_group`**: every leaf in its group.
-/

import Gatehouse.Proofs.Settings.Coherence
import Gatehouse.Proofs.Settings.Spelling

namespace Gatehouse

/-! ### Ways into a group -/

namespace Path

/-- A way in the group of a name comes from a way in the whole settings: through an object under the
name, or to a leaf under a longer key that begins with the name. -/
inductive Enters (name : String) : List String → List String → Prop
  | object (key : String) (after : List String) : Enters name (key :: after) (name :: key :: after)
  | leaf (dotless : '.' ∉ name.toList) (rest : String) : Enters name [rest] [name ++ "." ++ rest]

namespace Enters

variable {name other : String} {below behind whole : List String}

theorem spelled (enters : Enters name below whole) :
    segmentsOf whole = segments name ++ segmentsOf below := by
  cases enters with
  | object key after => rw [segmentsOf_cons]
  | leaf dotless rest => simp [segments_append]

theorem ne_nil (enters : Enters name below whole) : below ≠ [] := by
  cases enters <;> exact List.cons_ne_nil _ _

/-- A way in the whole settings enters one group. -/
theorem unique (first : Enters name below whole) (second : Enters other behind whole) :
    name = other ∧ below = behind := by
  cases first with
  | object key after =>
    generalize same : name :: key :: after = way at second
    cases second with
    | object key' after' =>
      cases same
      exact ⟨rfl, rfl⟩
    | leaf _ _ => cases same
  | leaf dotless rest =>
    generalize same : [name ++ "." ++ rest] = way at second
    cases second with
    | object key' after' => cases same
    | leaf dotless' rest' =>
      have pieces := congrArg segmentsOf same
      simp only [segmentsOf_cons, segmentsOf_nil, List.append_nil, segments_append,
        segments_of_dotless dotless, segments_of_dotless dotless', List.singleton_append,
        List.cons.injEq, String.toList_inj, segments_inj] at pieces
      exact ⟨pieces.1, by rw [pieces.2]⟩

/-- Every way enters a group, but for those of a single undotted key. -/
theorem exists_or_dotless (nonempty : whole ≠ []) :
    (∃ key, '.' ∉ key.toList ∧ whole = [key]) ∨ ∃ name below, Enters name below whole := by
  obtain ⟨key, rest, rfl⟩ := List.exists_cons_of_ne_nil nonempty
  by_cases more : rest = []
  swap
  · obtain ⟨next, after, rfl⟩ := List.exists_cons_of_ne_nil more
    exact .inr ⟨key, next :: after, .object next after⟩
  subst more
  by_cases dotted : '.' ∈ key.toList
  · obtain ⟨before, after, split, dotless⟩ := List.eq_append_cons_of_mem dotted
    have joined : key = String.ofList before ++ "." ++ String.ofList after := by
      apply String.toList_inj.mp
      simp [split]
    rw [joined]
    exact .inr ⟨_, _, .leaf (by rwa [String.toList_ofList]) _⟩
  · exact .inl ⟨key, dotted, rfl⟩

end Enters

end Path

/-! ### What a group is made of -/

namespace Tree

open Gatehouse.Path (segments segmentsOf Proper Enters)

variable {groups : Entries Settings} {key name rest : String} {value child : Tree}

/-- What an entry brings to the group of a name: an object under the name its members, and a leaf under
a longer key that begins with the name itself. -/
def share (name : String) (entry : String × Tree) : Entries Tree :=
  match entry.2 with
  | .object children => if entry.1 = name then children else []
  | leaf =>
    match Text.splitFirst? '.' entry.1.toList with
    | none => []
    | some (first, rest) => if String.ofList first = name then [(String.ofList rest, leaf)] else []

theorem share_of_object (children : Entries Tree) :
    share name (key, .object children) = if key = name then children else [] := rfl

theorem share_of_leaf (leaf : value.isObject = false) : share name (key, value) =
    match Text.splitFirst? '.' key.toList with
    | none => []
    | some (first, rest) => if String.ofList first = name then [(String.ofList rest, value)] else [] := by
  cases value with
  | object children => cases leaf
  | _ => rfl

theorem mem_share_iff : (rest, child) ∈ share name (key, value) ↔
    key = name ∧ (rest, child) ∈ value.members ∨
      value = child ∧ child.isObject = false ∧ '.' ∉ name.toList ∧ key = name ++ "." ++ rest := by
  cases object : value.isObject with
  | true =>
    obtain ⟨children, rfl⟩ := isObject_iff.mp object
    have other : ¬ (Tree.object children = child ∧ child.isObject = false ∧ '.' ∉ name.toList ∧
        key = name ++ "." ++ rest) := by
      rintro ⟨rfl, leaf, _⟩
      cases leaf
    rw [or_iff_left other, share_of_object]
    simp [members]
  | false =>
    rw [share_of_leaf object, members_of_not_object object]
    constructor
    · intro member
      split at member
      · cases member
      · next first after cut =>
        obtain ⟨joined, dotless⟩ := joined_of_splitFirst? cut
        split at member
        · next named =>
          obtain ⟨rfl, rfl⟩ := Prod.mk.inj (List.mem_singleton.mp member)
          exact .inr ⟨rfl, object, by rwa [← named, String.toList_ofList], by rw [joined, named]⟩
        · cases member
    · rintro (⟨_, impossible⟩ | ⟨rfl, _, dotless, joined⟩)
      · cases impossible
      have cut := (splitFirst?_eq_iff_below? dotless).mpr (Path.below?_eq_some_iff.mpr joined)
      simp [cut]

/-- **One entry merges its share into the group of a name.** -/
theorem entries_addToGroup (ordered : value.Ordered) :
    (groupOf (addToGroup groups key value ordered) name).entries =
      mergeAll (groupOf groups name).entries (share name (key, value)) := by
  cases object : value.isObject with
  | true =>
    obtain ⟨children, rfl⟩ := isObject_iff.mp object
    rw [addToGroup_object, groupOf_put, share_of_object]
    by_cases same : name = key
    · subst same
      rw [if_pos rfl, if_pos rfl]
    · rw [if_neg same, if_neg (Ne.symm same), mergeAll]
  | false =>
    rw [addToGroup_of_leaf object, share_of_leaf object]
    cases Text.splitFirst? '.' key.toList with
    | none => rw [mergeAll]
    | some parts =>
      obtain ⟨first, after⟩ := parts
      simp only [groupOf_put]
      by_cases same : name = String.ofList first
      · subst same
        rw [if_pos rfl, if_pos rfl, mergeAll, mergeAll]
      · rw [if_neg same, if_neg (Ne.symm same), mergeAll]

/-- The group of a name merges the shares of all entries. -/
theorem entries_groupAll {entries : Entries Tree} (ordered : ∀ entry ∈ entries, entry.2.Ordered)
    (groups : Table Settings) : (groupOf (groupAll entries ordered groups).entries name).entries =
      mergeAll (groupOf groups.entries name).entries (entries.flatMap (share name)) := by
  induction entries generalizing groups with
  | nil => rw [groupAll, List.flatMap_nil, mergeAll]
  | cons entry others ih =>
    obtain ⟨key, value⟩ := entry
    rw [groupAll, ih, entries_addToGroup, ← mergeAll_append, List.flatMap_cons]

/-- Leaves under undotted keys may be left out. -/
theorem groupAll_filter {test : String × Tree → Bool} {entries : Entries Tree}
    (unused : ∀ entry ∈ entries, test entry = false → entry.2.isObject = false ∧ '.' ∉ entry.1.toList)
    (ordered : ∀ entry ∈ entries, entry.2.Ordered)
    (remaining : ∀ entry ∈ entries.filter test, entry.2.Ordered) (groups : Table Settings) :
    groupAll (entries.filter test) remaining groups = groupAll entries ordered groups := by
  induction entries generalizing groups with
  | nil => rfl
  | cons entry others ih =>
    obtain ⟨key, value⟩ := entry
    obtain ⟨here, later⟩ := List.forall_mem_cons.mp unused
    cases kept : test (key, value) with
    | true =>
      simp only [List.filter_cons, kept, if_true, groupAll]
      exact ih later _ _ _
    | false =>
      obtain ⟨leaf, dotless⟩ := here kept
      have uncut : Text.splitFirst? '.' key.toList = none := by
        rw [Option.eq_none_iff_forall_ne_some]
        rintro ⟨first, after⟩ cut
        exact dotless ((Text.splitFirst?_eq_some_iff.mp cut).1 ▸ by simp)
      simp only [List.filter_cons, kept, Bool.false_eq_true, if_false, groupAll]
      rw [ih later fun entry member => ordered entry (List.mem_cons_of_mem _ member)]
      congr 1
      simp only [addToGroup_of_leaf leaf, uncut]

section Shares

variable {tree : Tree} (ordered : tree.Ordered)

include ordered

theorem follow_single_iff : tree.follow [key] = some value ↔ (key, value) ∈ tree.members := by
  rw [mem_members_iff ordered, follow_cons]
  simp

/-- The way behind an entry to what it brings to a group. -/
theorem follow_of_mem_share (member : (key, value) ∈ tree.members)
    (held : (rest, child) ∈ share name (key, value)) :
    key = name ∧ tree.follow [name, rest] = some child ∨
      key = name ++ "." ++ rest ∧ child.isObject = false ∧ '.' ∉ name.toList ∧
        tree.follow [name ++ "." ++ rest] = some child := by
  rcases mem_share_iff.mp held with ⟨rfl, inside⟩ | ⟨rfl, leaf, dotless, rfl⟩
  · have valueOrdered := ordered_of_mem_members ordered _ member
    exact .inl ⟨rfl, follow_cons_eq_some_iff.mpr
      ⟨value, (mem_members_iff ordered).mp member, (follow_single_iff valueOrdered).mpr inside⟩⟩
  · exact .inr ⟨rfl, leaf, dotless, (follow_single_iff ordered).mpr member⟩

/-- The shares in a group, by the ways in the whole tree. -/
theorem mem_shares_iff : (rest, child) ∈ tree.members.flatMap (share name) ↔
    tree.follow [name, rest] = some child ∨
      child.isObject = false ∧ '.' ∉ name.toList ∧ tree.follow [name ++ "." ++ rest] = some child := by
  rw [List.mem_flatMap]
  constructor
  · rintro ⟨⟨key, value⟩, member, held⟩
    exact (follow_of_mem_share ordered member held).imp And.right And.right
  · rintro (followed | ⟨leaf, dotless, followed⟩)
    · obtain ⟨value, found, onward⟩ := follow_cons_eq_some_iff.mp followed
      have member := Entries.mem_of_find? found
      have valueOrdered := ordered_of_mem_members ordered _ member
      exact ⟨(name, value), member,
        mem_share_iff.mpr (.inl ⟨rfl, (follow_single_iff valueOrdered).mp onward⟩)⟩
    · exact ⟨(name ++ "." ++ rest, child), (follow_single_iff ordered).mp followed,
        mem_share_iff.mpr (.inr ⟨rfl, leaf, dotless, rfl⟩)⟩

omit ordered in
/-- In a coherent tree a name does not lead to a member and to a leaf at the same path. -/
theorem Coherent.not_both (coherent : tree.Coherent) {member leaf : Tree}
    (isLeaf : leaf.isObject = false) (inside : tree.follow [name, rest] = some member)
    (joined : tree.follow [name ++ "." ++ rest] = some leaf) : False := by
  have same : segmentsOf [name, rest] = segmentsOf [name ++ "." ++ rest] := by
    simp [Path.segments_append]
  have ways := coherent.eq_of_spelled isLeaf joined (by rw [inside]; rfl) same
  exact absurd (congrArg List.length ways) (by simp)

omit ordered in
theorem nodup_share (ordered : value.Ordered) : ((share name (key, value)).map (·.1)).Nodup := by
  cases object : value.isObject with
  | true =>
    obtain ⟨children, rfl⟩ := isObject_iff.mp object
    rw [share_of_object]
    split
    · exact nodup_members ordered
    · exact List.nodup_nil
  | false =>
    rw [share_of_leaf object]
    split
    · exact List.nodup_nil
    · split
      · exact List.nodup_singleton _
      · exact List.nodup_nil

/-- In a coherent tree the shares in a group have distinct keys. -/
theorem nodup_shares (coherent : tree.Coherent) (name : String) :
    ((tree.members.flatMap (share name)).map (·.1)).Nodup := by
  have distinct : tree.members.Pairwise fun first second => first.1 ≠ second.1 :=
    List.pairwise_map.mp (nodup_members ordered)
  rw [List.map_flatMap, List.nodup_flatMap]
  refine ⟨fun entry member => nodup_share (ordered_of_mem_members ordered _ member), ?_⟩
  refine distinct.imp_of_mem fun {first second} member member' differ => ?_
  apply List.disjoint_left.mpr
  intro rest held held'
  obtain ⟨⟨_, child⟩, one, rfl⟩ := List.mem_map.mp held
  obtain ⟨⟨other, child'⟩, two, same⟩ := List.mem_map.mp held'
  obtain rfl : other = _ := same
  -- two entries bring the same key only as a member and as a leaf, and both stand at one path
  rcases follow_of_mem_share ordered member one with ⟨here, inside⟩ | ⟨here, leaf, _, joined⟩ <;>
    rcases follow_of_mem_share ordered member' two with ⟨there, inside'⟩ | ⟨there, leaf', _, joined'⟩
  · exact differ (here.trans there.symm)
  · exact coherent.not_both leaf' inside joined'
  · exact coherent.not_both leaf inside' joined
  · exact differ (here.trans there.symm)

end Shares

end Tree

/-! ### The ways in a group -/

namespace Settings

open Gatehouse.Path (segments segmentsOf Proper Leaves Enters)

variable {settings : Settings} {path name rest : String}

/-- A path of the root, which is empty, or of segments that are not. -/
def Rooted (path : String) : Prop := path = "" ∨ Proper path

instance (path : String) : Decidable (Rooted path) := by unfold Rooted; infer_instance

theorem under_root (settings : Settings) : settings.under "" = settings := if_pos rfl

theorem coherent_under_rooted (coherent : settings.toTree.Coherent) (rooted : Rooted path) :
    (settings.under path).toTree.Coherent := by
  rcases rooted with rfl | proper
  · rwa [under_root]
  · exact coherent_under coherent proper

/-- A leaf stands below a path where it stands in the whole settings. -/
theorem at_under_leaf_iff (coherent : settings.toTree.Coherent) (rooted : Rooted path) {leaf : Tree}
    (isLeaf : leaf.isObject = false) {pieces : List (List Char)} (nonempty : pieces ≠ []) :
    (settings.under path).toTree.At pieces leaf ↔
      settings.toTree.At (Tree.origin path ++ pieces) leaf := by
  rcases rooted with rfl | proper
  · rw [under_root]
    rfl
  · have aim : Tree.origin path = segments path := if_neg (Path.ne_empty_of_proper proper)
    rw [aim]
    constructor
    · rintro ⟨below, rfl, followed⟩
      obtain ⟨keys, leaves, whole⟩ := (follow_under_leaf_iff coherent proper isLeaf).mp followed
      exact ⟨keys, leaves.spelled, whole⟩
    · rintro ⟨keys, spelled, whole⟩
      obtain ⟨below, leaves, same⟩ := Leaves.of_spelled nonempty spelled
      exact ⟨below, same, (follow_under_leaf_iff coherent proper isLeaf).mpr ⟨keys, leaves, whole⟩⟩

section Group

variable (coherent : (settings.under path).toTree.Coherent) {group : Settings}
  (found : (settings.groups path).find? name = some group)

include found

/-- A group merges the shares of all entries below the path. -/
theorem entries_group : group.entries =
    Tree.mergeAll [] ((settings.under path).toTree.members.flatMap (Tree.share name)) := by
  have held : Tree.groupOf (settings.groups path).entries name = group := by
    unfold Tree.groupOf
    rw [show (settings.groups path).entries.find? name = some group from found]
    rfl
  rw [← held]
  exact Tree.entries_groupAll _ Table.empty

include coherent

theorem find?_group_iff {key : String} {child : Tree} : group.entries.find? key = some child ↔
    (settings.under path).toTree.follow [name, key] = some child ∨
      child.isObject = false ∧ '.' ∉ name.toList ∧
        (settings.under path).toTree.follow [name ++ "." ++ key] = some child := by
  have ordered := (settings.under path).ordered_toTree
  rw [entries_group found, Tree.find?_mergeAll_nil_iff (Tree.nodup_shares ordered coherent name)]
  exact Tree.mem_shares_iff ordered

/-- **What stands in a group stands in the settings below the path**, where its way enters the group. -/
theorem exists_of_follow_group {below : List String} {value : Tree} (nonempty : below ≠ [])
    (followed : group.toTree.follow below = some value) :
    ∃ whole, Enters name below whole ∧
      (settings.under path).toTree.follow whole = some value := by
  obtain ⟨key, after, rfl⟩ := List.exists_cons_of_ne_nil nonempty
  obtain ⟨child, inside, onward⟩ := Tree.follow_cons_eq_some_iff.mp followed
  rcases (find?_group_iff coherent found).mp inside with reached | ⟨leaf, dotless, joined⟩
  · exact ⟨name :: key :: after, .object key after,
      Tree.follow_append_eq_some_iff.mpr ⟨child, reached, onward⟩⟩
  · obtain rfl := Tree.follow_of_no_members (Tree.members_of_not_object leaf) onward
    obtain rfl := Option.some.inj onward
    exact ⟨_, .leaf dotless key, joined⟩

/-- **A leaf whose way enters a group stands in the group.** -/
theorem follow_group_of_enters {below whole : List String} {leaf : Tree} (isLeaf : leaf.isObject = false)
    (enters : Enters name below whole)
    (followed : (settings.under path).toTree.follow whole = some leaf) :
    group.toTree.follow below = some leaf := by
  cases enters with
  | object key after =>
    have split : (settings.under path).toTree.follow ([name, key] ++ after) = some leaf := followed
    obtain ⟨child, reached, onward⟩ := Tree.follow_append_eq_some_iff.mp split
    exact Tree.follow_cons_eq_some_iff.mpr
      ⟨child, (find?_group_iff coherent found).mpr (.inl reached), onward⟩
  | leaf dotless key =>
    exact Tree.follow_cons_eq_some_iff.mpr
      ⟨leaf, (find?_group_iff coherent found).mpr (.inr ⟨isLeaf, dotless, followed⟩), rfl⟩

/-- A group is part of what lies below the path. -/
theorem partOf_group :
    group.toTree.PartOf (settings.under path).toTree (segments name) (Enters name) where
  isObject := rfl
  spelled := Enters.spelled
  unique enters enters' := (enters.unique enters').2
  leaf := by
    intro below leaf followed isLeaf
    apply exists_of_follow_group coherent found _ followed
    rintro rfl
    obtain rfl := Option.some.inj followed
    cases isLeaf
  reached := by
    intro below nonempty reached
    obtain ⟨_, followed⟩ := Option.isSome_iff_exists.mp reached
    obtain ⟨whole, enters, there⟩ := exists_of_follow_group coherent found nonempty followed
    exact ⟨whole, enters, by rw [there]; rfl⟩

theorem coherent_group : group.toTree.Coherent :=
  coherent.of_partOf (partOf_group coherent found)

end Group

/-- There is a group for every leaf whose way enters one. -/
theorem exists_group_of_enters {below whole : List String} {leaf : Tree} (isLeaf : leaf.isObject = false)
    (enters : Enters name below whole)
    (followed : (settings.under path).toTree.follow whole = some leaf) :
    ∃ group, (settings.groups path).find? name = some group := by
  apply Option.isSome_iff_exists.mp
  show (settings.groups path).contains name = true
  rw [contains_groups_iff]
  cases enters with
  | object key after =>
    obtain ⟨child, inside, onward⟩ := Tree.follow_cons_eq_some_iff.mp followed
    obtain ⟨entries, rfl⟩ := Tree.eq_object_of_follow_cons onward
    exact ⟨_, Entries.mem_of_find? inside, .whole rfl⟩
  | leaf dotless key =>
    have member := (Tree.follow_single_iff (settings.under path).ordered_toTree).mp followed
    exact ⟨_, member, .first key dotless isLeaf⟩

/-! ### Every leaf in its group -/

/-- What the group of a name finds at a path; without this group nothing. -/
def getInGroup? (settings : Settings) (path name rest : String) : Option Tree :=
  ((settings.groups path).find? name).bind fun group => group.get? rest

/-- Settings without the value under a key at the top. -/
def without (settings : Settings) (key : String) : Settings :=
  ⟨settings.entries.erase key, Tree.orderedEntries_erase settings.ordered key⟩

/-- What is below a path under a key is in no group: nothing in a group has its path, and the groups
are the same without it. -/
structure Ungrouped (settings : Settings) (path key : String) : Prop where
  absent : ∀ {name group below}, (settings.groups path).find? name = some group → below ≠ [] →
    (group.toTree.follow below).isSome = true → segments name ++ segmentsOf below ≠ segments key
  unused : ((settings.under path).without key).groups "" = settings.groups path

section Leaf

variable (coherent : (settings.under path).toTree.Coherent) {leaf : Tree}
  (isLeaf : leaf.isObject = false)

include coherent isLeaf

/-- A leaf under an undotted key is in no group. -/
theorem ungrouped_of_dotless {key : String} (dotless : '.' ∉ key.toList)
    (followed : (settings.under path).toTree.follow [key] = some leaf) :
    settings.Ungrouped path key where
  absent := by
    intro name group below found nonempty reached same
    obtain ⟨value, inside⟩ := Option.isSome_iff_exists.mp reached
    obtain ⟨whole, enters, there⟩ := exists_of_follow_group coherent found nonempty inside
    have spelled : segmentsOf whole = segmentsOf [key] := by
      rw [enters.spelled, same, Path.segmentsOf_cons, Path.segmentsOf_nil, List.append_nil]
    obtain rfl := coherent.eq_of_spelled isLeaf followed (by rw [there]; rfl) spelled
    cases enters with
    | leaf _ rest => exact dotless (by simp)
  unused := by
    have root : ((settings.under path).without key).under "" = (settings.under path).without key :=
      under_root _
    unfold groups
    simp only [root]
    refine Tree.groupAll_filter (fun entry member dropped => ?_) _ _ _
    obtain ⟨name, value⟩ := entry
    obtain rfl : name = key := by simpa using dropped
    have here := (Tree.follow_single_iff (settings.under path).ordered_toTree).mpr member
    rw [followed] at here
    obtain rfl := Option.some.inj here
    exact ⟨isLeaf, dotless⟩

/-- The group that the way to a leaf enters finds the leaf. -/
theorem getInGroup?_of_enters {below whole : List String} (enters : Enters name below whole)
    (followed : (settings.under path).toTree.follow whole = some leaf)
    (spelled : segments rest = segmentsOf below) : settings.getInGroup? path name rest = some leaf := by
  obtain ⟨group, found⟩ := exists_group_of_enters isLeaf enters followed
  have inside := follow_group_of_enters coherent found isLeaf enters followed
  have groupCoherent := coherent_group coherent found
  have proper : Proper rest := by
    unfold Path.Proper
    rw [spelled]
    exact groupCoherent.proper (by rw [inside]; rfl)
  unfold getInGroup?
  rw [found]
  exact (groupCoherent.lookup_eq_some_iff isLeaf proper).mpr ⟨below, spelled.symm, inside⟩

/-- At the path of a leaf only the group that its way enters finds anything, and it finds the leaf. -/
theorem eq_of_getInGroup? {below whole : List String} (enters : Enters name below whole)
    (followed : (settings.under path).toTree.follow whole = some leaf) {other : String}
    (spelled : segmentsOf whole = segments (other ++ "." ++ rest)) {found : Tree}
    (finds : settings.getInGroup? path other rest = some found) : other = name ∧ found = leaf := by
  obtain ⟨group, grouped, looked⟩ := Option.bind_eq_some_iff.mp finds
  have proper : Proper (other ++ "." ++ rest) := by
    unfold Path.Proper
    rw [← spelled]
    exact coherent.proper (by rw [followed]; rfl)
  obtain ⟨behind, same, inside⟩ := Tree.at_of_lookup (Path.proper_append_iff.mp proper).2 looked
  have nonempty : behind ≠ [] := by
    rintro rfl
    exact Path.segments_ne_nil rest same.symm
  obtain ⟨way, enters', there⟩ := exists_of_follow_group coherent grouped nonempty inside
  have paths : segmentsOf way = segmentsOf whole := by
    rw [spelled, Path.segments_append, enters'.spelled, same]
  obtain rfl := coherent.eq_of_spelled isLeaf followed (by rw [there]; rfl) paths
  rw [followed] at there
  exact ⟨(enters'.unique enters).1, (Option.some.inj there).symm⟩

end Leaf

/-- **The groups divide up the leaves.** Take coherent settings and a leaf anywhere below a path. If the
rest of its path is a single segment, it is in no group. Otherwise its path goes through the name of one
group, which finds the leaf at what remains; no other group finds anything at this path. Conversely,
every leaf in a group is one of these, and stands there once. -/
theorem leaf_ungrouped_or_in_one_group (coherent : settings.toTree.Coherent) (rooted : Rooted path) :
    (∀ rest leaf, settings.toTree.At (Tree.origin path ++ segments rest) leaf → leaf.isObject = false →
      ('.' ∉ rest.toList ∧ settings.Ungrouped path rest) ∨
      ∃ name below, rest = name ++ "." ++ below ∧ settings.getInGroup? path name below = some leaf ∧
        ∀ other behind found, rest = other ++ "." ++ behind →
          settings.getInGroup? path other behind = some found → other = name ∧ found = leaf) ∧
    ∀ name group below leaf, (settings.groups path).find? name = some group →
      group.toTree.follow below = some leaf → leaf.isObject = false →
      ∃ rest, segments rest = segmentsOf below ∧
        settings.toTree.At (Tree.origin path ++ segments (name ++ "." ++ rest)) leaf ∧
        settings.getInGroup? path name rest = some leaf ∧
        ∀ others, (group.toTree.follow others).isSome = true → segmentsOf others = segmentsOf below →
          others = below := by
  have coherentBelow := coherent_under_rooted coherent rooted
  refine ⟨fun rest leaf stands isLeaf => ?_, fun name group below leaf found followed isLeaf => ?_⟩
  · obtain ⟨whole, spelled, followed⟩ :=
      (at_under_leaf_iff coherent rooted isLeaf (Path.segments_ne_nil rest)).mpr stands
    have nonempty : whole ≠ [] := by
      rintro rfl
      exact Path.segments_ne_nil rest spelled.symm
    rcases Enters.exists_or_dotless nonempty with ⟨key, dotless, rfl⟩ | ⟨name, below, enters⟩
    · rw [Path.segmentsOf_cons, Path.segmentsOf_nil, List.append_nil, Path.segments_inj] at spelled
      subst spelled
      exact .inl ⟨dotless, ungrouped_of_dotless coherentBelow isLeaf dotless followed⟩
    · have split := spelled.symm.trans enters.spelled
      obtain ⟨behind, same⟩ := Path.exists_suffix
        (fun empty => enters.ne_nil (Path.segmentsOf_eq_nil_iff.mp empty)) split
      have joined : rest = name ++ "." ++ behind := by
        rw [← Path.segments_inj, Path.segments_append, same, split]
      refine .inr ⟨name, behind, joined,
        getInGroup?_of_enters coherentBelow isLeaf enters followed same, ?_⟩
      rintro other behind' found rfl finds
      exact eq_of_getInGroup? coherentBelow isLeaf enters followed spelled finds
  · have nonempty : below ≠ [] := by
      rintro rfl
      obtain rfl := Option.some.inj followed
      cases isLeaf
    obtain ⟨whole, enters, there⟩ := exists_of_follow_group coherentBelow found nonempty followed
    obtain ⟨rest, same⟩ := Path.exists_segments_eq_segmentsOf nonempty
    refine ⟨rest, same, ?_, getInGroup?_of_enters coherentBelow isLeaf enters there same, ?_⟩
    · refine (at_under_leaf_iff coherent rooted isLeaf (Path.segments_ne_nil _)).mp ⟨whole, ?_, there⟩
      rw [enters.spelled, Path.segments_append, same]
    · intro others reached paths
      exact (coherent_group coherentBelow found).eq_of_spelled isLeaf followed reached paths

/-- A ship whose crew is named in three ways, with a team under a dotted key. -/
def crewInThreeWays : Settings := .ofTree (.object [
  ("ship", .object [("away.team", .object [("leader", .text "riker")]),
    ("crew", .object [("captain", .text "kirk")]), ("speed", .int 9)]),
  ("ship.crew", .object [("pilot", .text "sulu")]),
  ("ship.crew.doctor", .text "mccoy")])

theorem leaf_in_one_group_of_crewInThreeWays :
    crewInThreeWays.toTree.Coherent ∧ Rooted "ship" ∧
    crewInThreeWays.toTree.At (Tree.origin "ship" ++ segments "crew.doctor") (.text "mccoy") ∧
    crewInThreeWays.getInGroup? "ship" "crew" "doctor" = some (.text "mccoy") ∧
    (∀ other behind found, "crew.doctor" = other ++ "." ++ behind →
      crewInThreeWays.getInGroup? "ship" other behind = some found →
        other = "crew" ∧ found = .text "mccoy") ∧
    crewInThreeWays.toTree.At (Tree.origin "ship" ++ segments "speed") (.int 9) ∧
    crewInThreeWays.Ungrouped "ship" "speed" ∧
    ∃ group, (crewInThreeWays.groups "ship").find? "away.team" = some group ∧
      group.toTree.follow ["leader"] = some (.text "riker") ∧
      crewInThreeWays.toTree.At (Tree.origin "ship" ++ segments "away.team.leader")
        (.text "riker") := by
  have coherent : crewInThreeWays.toTree.Coherent := by decide +kernel
  have rooted : Rooted "ship" := by decide
  obtain ⟨grouped, back⟩ := leaf_ungrouped_or_in_one_group coherent rooted
  have doctor : crewInThreeWays.toTree.At (Tree.origin "ship" ++ segments "crew.doctor")
      (.text "mccoy") := ⟨["ship.crew.doctor"], by decide, rfl⟩
  have speed : crewInThreeWays.toTree.At (Tree.origin "ship" ++ segments "speed") (.int 9) :=
    ⟨["ship", "speed"], by decide, rfl⟩
  have found : crewInThreeWays.getInGroup? "ship" "crew" "doctor" = some (.text "mccoy") := by
    decide +kernel
  refine ⟨coherent, rooted, doctor, found, ?_, speed, ?_, ?_⟩
  · rcases grouped _ _ doctor rfl with ⟨dotless, _⟩ | ⟨name, below, _, _, only⟩
    · exact absurd dotless (by decide)
    · obtain ⟨rfl, _⟩ := only "crew" "doctor" _ (by decide) found
      exact only
  · rcases grouped _ _ speed rfl with ⟨_, ungrouped⟩ | ⟨name, below, joined, _⟩
    · exact ungrouped
    · have dot : '.' ∈ "speed".toList := by rw [joined]; simp
      exact absurd dot (by decide)
  · have held : (((crewInThreeWays.groups "ship").find? "away.team").bind fun group =>
        group.toTree.follow ["leader"]) = some (.text "riker") := by decide +kernel
    obtain ⟨group, team, leader⟩ := Option.bind_eq_some_iff.mp held
    obtain ⟨rest, same, stands, _⟩ := back _ _ _ _ team leader rfl
    obtain rfl : rest = "leader" := Path.segments_inj.mp (by rw [same]; decide)
    exact ⟨group, team, leader, stands⟩

end Settings

end Gatehouse
