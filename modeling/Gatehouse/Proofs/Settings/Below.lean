/-
**Settings below a path.**

A way through a tree crosses a path with the first key that leads beyond it; what remains of this key
is the key below the path. In clear settings every way crosses a path once at most, so that merging
what lies below it loses nothing.

* `Tree.Crosses`: a value behind the key that crosses some segments, and what remains of the key;
* `Tree.gather_eq`, `Tree.mem_listed_iff`: what is gathered below a path is what crosses it;
* **`Settings.at_under_iff`**, `Settings.clear_under`: what stands below a path of clear settings;
* `Settings.get?_under`: looking up below a path.
-/

import Mathlib.Data.List.Nodup
import Gatehouse.Proofs.Settings.Places

namespace Gatehouse

namespace Tree

open Gatehouse.Path (segments segmentsOf Proper Leaves)

/-! ### Merging distinct keys -/

theorem insertMerged_of_absent {entries : Entries Tree} {key : String} {value : Tree}
    (absent : entries.find? key = none) : insertMerged entries key value = entries.put key value := by
  cases value with
  | object incoming => rw [insertMerged, absent]
  | _ => rfl

theorem mergeAll_append (entries first second : Entries Tree) :
    mergeAll entries (first ++ second) = mergeAll (mergeAll entries first) second := by
  induction first generalizing entries with
  | nil => rw [List.nil_append, mergeAll]
  | cons entry rest ih =>
    obtain ⟨key, value⟩ := entry
    rw [List.cons_append, mergeAll, mergeAll, ih]

theorem find?_eq_none_of_not_mem {entries : Entries Tree} {name : String}
    (absent : name ∉ entries.map (·.1)) : entries.find? name = none := by
  cases found : entries.find? name with
  | none => rfl
  | some value => exact (absent (List.mem_map_of_mem (Entries.mem_of_find? found))).elim

theorem find?_of_mem_of_nodup {entries : Entries Tree} (distinct : (entries.map (·.1)).Nodup)
    {name : String} {value : Tree} (member : (name, value) ∈ entries) :
    entries.find? name = some value := by
  induction entries with
  | nil => cases member
  | cons entry rest ih =>
    obtain ⟨key, other⟩ := entry
    obtain ⟨fresh, later⟩ := List.nodup_cons.mp distinct
    rcases List.mem_cons.mp member with here | there
    · cases here
      rw [Entries.find?, if_pos rfl]
    · have different : name ≠ key := fun same =>
        fresh (same ▸ List.mem_map_of_mem (f := (·.1)) there)
      rw [Entries.find?, if_neg different]
      exact ih later there

/-- Entries with distinct new keys are all found after merging them. -/
theorem find?_mergeAll {found incoming : Entries Tree} (distinct : (incoming.map (·.1)).Nodup)
    (absent : ∀ entry ∈ incoming, found.find? entry.1 = none) (name : String) :
    (mergeAll found incoming).find? name = (incoming.find? name).or (found.find? name) := by
  induction incoming generalizing found with
  | nil => rw [mergeAll]; rfl
  | cons entry rest ih =>
    obtain ⟨key, value⟩ := entry
    obtain ⟨fresh, later⟩ := List.nodup_cons.mp distinct
    have here : found.find? key = none := absent (key, value) List.mem_cons_self
    have still : ∀ entry ∈ rest, (found.put key value).find? entry.1 = none := by
      intro entry member
      have different : entry.1 ≠ key := fun same =>
        fresh (same ▸ List.mem_map_of_mem (f := (·.1)) member)
      rw [Entries.find?_put_of_ne different]
      exact absent entry (List.mem_cons_of_mem _ member)
    rw [mergeAll, insertMerged_of_absent here, ih later still, Entries.find?_put]
    by_cases same : name = key
    · subst same
      rw [find?_eq_none_of_not_mem fresh, if_pos rfl, Entries.find?, if_pos rfl]
      rfl
    · rw [if_neg same, Entries.find?, if_neg same]

/-- Of entries with distinct keys that are merged into nothing, each is found and no other. -/
theorem find?_mergeAll_nil_iff {incoming : Entries Tree} (distinct : (incoming.map (·.1)).Nodup)
    {name : String} {value : Tree} :
    (mergeAll [] incoming).find? name = some value ↔ (name, value) ∈ incoming := by
  rw [find?_mergeAll distinct fun _ _ => rfl, Entries.find?_nil, Option.or_none]
  exact ⟨Entries.mem_of_find?, find?_of_mem_of_nodup distinct⟩

/-! ### Crossing a path -/

/-- A value stands behind the first key that leads beyond some segments; `rest` is what remains of
this key. -/
inductive Crosses : Tree → List (List Char) → String → Tree → Prop
  | here {tree value : Tree} {within : List (List Char)} {key rest : String}
      (found : Entries.find? key tree.members = some value)
      (beyond : Path.segments key = within ++ Path.segments rest) : Crosses tree within rest value
  | inside {tree child value : Tree} {left : List (List Char)} {key rest : String}
      (found : Entries.find? key tree.members = some child) (later : Crosses child left rest value) :
      Crosses tree (Path.segments key ++ left) rest value

namespace Crosses

variable {tree value : Tree} {within : List (List Char)} {rest : String}

/-- A crossing by its first key. -/
theorem iff_key : Crosses tree within rest value ↔
    ∃ key child, Entries.find? key tree.members = some child ∧
      (segments key = within ++ segments rest ∧ child = value ∨
        ∃ left, within = segments key ++ left ∧ Crosses child left rest value) := by
  constructor
  · intro crosses
    cases crosses with
    | here found beyond => exact ⟨_, _, found, Or.inl ⟨beyond, rfl⟩⟩
    | inside found later => exact ⟨_, _, found, Or.inr ⟨_, rfl, later⟩⟩
  · rintro ⟨key, child, found, ⟨beyond, rfl⟩ | ⟨left, rfl, later⟩⟩
    · exact .here found beyond
    · exact .inside found later

/-- A way leads to what crosses some segments, and only its last key leads beyond them. -/
theorem reached (crosses : Crosses tree within rest value) :
    ∃ keys key, tree.follow (keys ++ [key]) = some value ∧ segmentsOf keys <+: within ∧
      segmentsOf (keys ++ [key]) = within ++ segments rest := by
  induction crosses with
  | @here tree value within key rest found beyond =>
    refine ⟨[], key, follow_cons_eq_some_iff.mpr ⟨value, found, rfl⟩, List.nil_prefix, ?_⟩
    rw [List.nil_append, Path.segmentsOf_cons, Path.segmentsOf_nil, List.append_nil, beyond]
  | @inside tree child value left key rest found later ih =>
    obtain ⟨keys, last, followed, stays, spelled⟩ := ih
    refine ⟨key :: keys, last, follow_cons_eq_some_iff.mpr ⟨child, found, followed⟩, ?_, ?_⟩
    · rw [Path.segmentsOf_cons]
      exact (List.prefix_append_right_inj _).mpr stays
    · rw [List.cons_append, Path.segmentsOf_cons, spelled, List.append_assoc]

/-- What crosses some segments, and what is behind it, is what the ways that leave them lead to. -/
theorem iff_leaves {after : List String} {value : Tree} :
    (∃ child, Crosses tree within rest child ∧ child.follow after = some value) ↔
      ∃ keys, Leaves within keys (rest :: after) ∧ tree.follow keys = some value := by
  constructor
  · rintro ⟨child, crosses, onward⟩
    induction crosses with
    | here found beyond =>
      exact ⟨_, .here beyond, follow_cons_eq_some_iff.mpr ⟨_, found, onward⟩⟩
    | inside found _ ih =>
      obtain ⟨keys, leaves, followed⟩ := ih onward
      exact ⟨_, .inside leaves, follow_cons_eq_some_iff.mpr ⟨_, found, followed⟩⟩
  · rintro ⟨keys, leaves, followed⟩
    generalize same : rest :: after = below at leaves
    induction leaves generalizing tree with
    | here beyond =>
      cases same
      obtain ⟨child, found, onward⟩ := follow_cons_eq_some_iff.mp followed
      exact ⟨child, .here found beyond, onward⟩
    | inside _ ih =>
      obtain ⟨child, found, later⟩ := follow_cons_eq_some_iff.mp followed
      obtain ⟨crossed, crosses, onward⟩ := ih later same
      exact ⟨crossed, .inside found crosses, onward⟩

/-- Every way beyond some segments crosses them. -/
theorem of_follow {keys : List String} {pieces : List (List Char)} (nonempty : pieces ≠ [])
    (followed : tree.follow keys = some value) (spelled : segmentsOf keys = within ++ pieces) :
    ∃ rest child after, Crosses tree within rest child ∧ child.follow after = some value ∧
      pieces = segments rest ++ segmentsOf after := by
  obtain ⟨below, leaves, same⟩ := Leaves.of_spelled nonempty spelled
  obtain ⟨rest, after, rfl⟩ := List.exists_cons_of_ne_nil leaves.ne_nil
  obtain ⟨child, crosses, onward⟩ := iff_leaves.mpr ⟨keys, leaves, followed⟩
  exact ⟨rest, child, after, crosses, onward, same.symm⟩

/-- What crosses no segments is a member. -/
theorem nil_iff : Crosses tree [] rest value ↔ Entries.find? rest tree.members = some value := by
  refine ⟨fun crosses => ?_, fun found => .here found rfl⟩
  generalize empty : ([] : List (List Char)) = within at crosses
  cases crosses with
  | here found beyond =>
    subst empty
    rwa [← Path.segments_inj.mp beyond]
  | inside found later =>
    exact (Path.segments_ne_nil _ (List.append_eq_nil_iff.mp empty.symm).1).elim

end Crosses

/-- A key that leads beyond some segments stands behind the keys that stay within them. -/
theorem length_le_of_leaves {keys others after behind : List String} {key other : String}
    {within pieces : List (List Char)} (whole : keys ++ key :: after = others ++ other :: behind)
    (stays : segmentsOf others <+: within) (nonempty : pieces ≠ [])
    (leaves : segmentsOf (keys ++ [key]) = within ++ pieces) : others.length ≤ keys.length := by
  by_contra longer
  have early : keys ++ [key] <+: others ++ other :: behind := ⟨after, by rw [← whole]; simp⟩
  have inside : keys ++ [key] <+: others :=
    List.prefix_of_prefix_length_le early (List.prefix_append _ _) (by simp; omega)
  obtain ⟨more, rfl⟩ := inside
  rw [Path.segmentsOf_append, leaves, List.append_assoc] at stays
  obtain ⟨rest, same⟩ := stays
  rw [List.append_assoc] at same
  have empty := List.append_right_eq_self.mp same
  exact nonempty (List.append_eq_nil_iff.mp (List.append_eq_nil_iff.mp empty).1).1

/-- In a clear tree a way crosses some segments once: the key below them and the way behind it are
determined by the segments that follow. -/
theorem Clear.crosses_unique {tree first second : Tree} (clear : tree.Clear)
    {within : List (List Char)} {rest other : String} {after behind : List String}
    (left : Crosses tree within rest first) (right : Crosses tree within other second)
    (leftOn : (first.follow after).isSome = true) (rightOn : (second.follow behind).isSome = true)
    (same : segments rest ++ segmentsOf after = segments other ++ segmentsOf behind) :
    rest = other ∧ after = behind := by
  obtain ⟨keys, key, followed, stays, spelled⟩ := left.reached
  obtain ⟨keys', key', followed', stays', spelled'⟩ := right.reached
  have whole : keys ++ key :: after = keys' ++ key' :: behind := by
    have ways : keys ++ [key] ++ after = keys' ++ [key'] ++ behind := by
      refine clear.unique ?_ ?_ ?_
      · rw [follow_append, followed]; exact leftOn
      · rw [follow_append, followed']; exact rightOn
      · rw [Path.segmentsOf_append, Path.segmentsOf_append _ behind, spelled, spelled',
          List.append_assoc, List.append_assoc, same]
    simpa using ways
  have lengths : keys.length = keys'.length :=
    Nat.le_antisymm (length_le_of_leaves whole.symm stays (Path.segments_ne_nil _) spelled')
      (length_le_of_leaves whole stays' (Path.segments_ne_nil _) spelled)
  obtain ⟨rfl, tails⟩ := List.append_inj whole lengths
  obtain ⟨rfl, rfl⟩ := List.cons.inj tails
  exact ⟨Path.segments_inj.mp (List.append_cancel_left (spelled.symm.trans spelled')), rfl⟩

/-! ### What is gathered -/

mutual

/-- What a tree standing at `here` holds below `path`. -/
def listed (path here : String) : Tree → Entries Tree
  | .object entries => listedEntries path here entries
  | _ => []

/-- The same for the entries of an object. -/
def listedEntries (path here : String) : List (String × Tree) → Entries Tree
  | [] => []
  | (key, value) :: rest =>
    let place := Path.child here key
    let below :=
      if place = path then value.members
      else match Path.below? path place with
        | some name => [(name, value)]
        | none => if (Path.below? place path).isSome then listed path place value else []
    below ++ listedEntries path here rest

end

/-- What one entry of an object standing at `here` holds below `path`. -/
def listedEntry (path here : String) (entry : String × Tree) : Entries Tree :=
  listedEntries path here [entry]

theorem listed_object (path here : String) (entries : Entries Tree) :
    listed path here (.object entries) = entries.flatMap (listedEntry path here) := by
  rw [listed]
  induction entries with
  | nil => rw [listedEntries]; rfl
  | cons entry rest ih =>
    obtain ⟨key, value⟩ := entry
    rw [listedEntries, List.flatMap_cons, ih, listedEntry, listedEntries, listedEntries,
      List.append_nil]

/-- Gathering is merging what is listed. -/
theorem gather_eq (path : String) (tree : Tree) (here : String) (found : Entries Tree) :
    gather path here tree found = mergeAll found (listed path here tree) := by
  induction tree using Tree.induction generalizing here found with
  | object entries ih =>
    rw [gather, listed]
    induction entries generalizing found with
    | nil => rw [gatherEntries, listedEntries, mergeAll]
    | cons entry rest rest_ih =>
      obtain ⟨key, value⟩ := entry
      rw [gatherEntries, listedEntries, mergeAll_append,
        rest_ih fun entry member => ih entry (List.mem_cons_of_mem _ member)]
      congr 1
      by_cases arrived : Path.child here key = path
      · rw [if_pos arrived, if_pos arrived]
      rw [if_neg arrived, if_neg arrived]
      cases Path.below? path (Path.child here key) with
      | some name => simp only [mergeAll]
      | none =>
        by_cases toward : (Path.below? (Path.child here key) path).isSome = true
        · simp only [if_pos toward]
          exact ih (key, value) List.mem_cons_self _ _
        · simp only [if_neg toward, mergeAll]
  | _ => rw [gather, listed, mergeAll] <;> exact fun _ impossible => by cases impossible

/-- The segments of a place in which trees stand; the root has none. -/
def origin (here : String) : List (List Char) := if here = "" then [] else segments here

theorem segments_child (here key : String) :
    segments (Path.child here key) = origin here ++ segments key := by
  unfold Path.child origin
  split
  · rfl
  · exact Path.segments_append here key

theorem origin_child {here key : String} (named : key ≠ "") :
    origin (Path.child here key) = origin here ++ segments key := by
  rw [← segments_child]
  refine if_neg fun empty => ?_
  unfold Path.child at empty
  split at empty
  · exact named empty
  · have longer := congrArg String.length empty
    simp [String.length_append] at longer

theorem mem_members_iff {tree value : Tree} (ordered : tree.Ordered) {key : String} :
    (key, value) ∈ tree.members ↔ Entries.find? key tree.members = some value := by
  refine ⟨fun member => ?_, Entries.mem_of_find?⟩
  cases tree with
  | object entries =>
    exact Entries.find?_of_mem ((ordered_object_iff entries).mp ordered).1 member
  | _ => cases member

section Entry

variable {path here key rest : String} {value : Tree} {within : List (List Char)}
  (aim : segments path = origin here ++ within)

include aim

/-- A key that leads beyond the path is listed by what remains of it. -/
theorem listedEntry_beyond
    (beyond : segments key = within ++ segments rest) :
    listedEntry path here (key, value) = [(rest, value)] := by
  have place : segments (Path.child here key) = segments path ++ segments rest := by
    rw [segments_child, beyond, aim, List.append_assoc]
  have further : Path.child here key ≠ path := by
    intro arrived
    rw [arrived, ← List.append_nil (segments path)] at place
    exact Path.append_segments_ne (segments path) [] rest (by rw [← place, List.append_nil])
  have below : Path.below? path (Path.child here key) = some rest :=
    Path.below?_eq_some_iff_segments.mpr place
  rw [listedEntry, listedEntries, listedEntries, if_neg further, below, List.append_nil]

/-- Behind a key that leads to the path, the members are listed. -/
theorem listedEntry_arrived
    (whole : within = segments key) : listedEntry path here (key, value) = value.members := by
  have arrived : Path.child here key = path := by
    rw [← Path.segments_inj, segments_child, aim, whole]
  rw [listedEntry, listedEntries, listedEntries, if_pos arrived, List.append_nil]

/-- Behind a key that leads towards the path, it goes on. -/
theorem listedEntry_toward {left : List (List Char)}
    (nonempty : left ≠ []) (split : within = segments key ++ left) :
    listedEntry path here (key, value) = listed path (Path.child here key) value := by
  have place : segments path = segments (Path.child here key) ++ left := by
    rw [segments_child, aim, split, List.append_assoc]
  have further : Path.child here key ≠ path := by
    intro arrived
    rw [arrived] at place
    exact nonempty (List.append_right_eq_self.mp place.symm)
  have notBelow : Path.below? path (Path.child here key) = none := by
    rw [Option.eq_none_iff_forall_ne_some]
    intro name below
    rw [Path.below?_eq_some_iff_segments, place] at below
    exact Path.append_segments_ne _ left name below.symm
  have toward : (Path.below? (Path.child here key) path).isSome = true :=
    Path.below?_isSome_iff.mpr ⟨left, nonempty, place⟩
  rw [listedEntry, listedEntries, listedEntries, if_neg further, notBelow, List.append_nil]
  exact if_pos toward

/-- Behind any other key nothing is listed. -/
theorem listedEntry_apart (notArrived : within ≠ segments key)
    (notBeyond : ∀ rest, segments key ≠ within ++ segments rest)
    (notToward : ∀ left, left ≠ [] → within ≠ segments key ++ left) :
    listedEntry path here (key, value) = [] := by
  have place : segments (Path.child here key) = origin here ++ segments key :=
    segments_child here key
  have further : Path.child here key ≠ path := fun arrived =>
    notArrived (List.append_cancel_left (aim.symm.trans (arrived ▸ place)))
  have notBelow : Path.below? path (Path.child here key) = none := by
    rw [Option.eq_none_iff_forall_ne_some]
    intro rest below
    rw [Path.below?_eq_some_iff_segments, place, aim, List.append_assoc] at below
    exact notBeyond rest (List.append_cancel_left below)
  have notAhead : ¬ (Path.below? (Path.child here key) path).isSome = true := by
    rw [Path.below?_isSome_iff]
    rintro ⟨left, nonempty, split⟩
    rw [place, aim, List.append_assoc] at split
    exact notToward left nonempty (List.append_cancel_left split)
  rw [listedEntry, listedEntries, listedEntries, if_neg further, notBelow, List.append_nil]
  exact if_neg notAhead

/-- One entry holds below a path what its key leaves of the path, or what crosses the path behind it,
once this is known of the values behind the entry. -/
theorem mem_listedEntry_iff_of {found : Tree} (ordered : value.Ordered)
    (later : ∀ left, left ≠ [] → within = segments key ++ left →
      ((rest, found) ∈ listed path (Path.child here key) value ↔ Crosses value left rest found)) :
    (rest, found) ∈ listedEntry path here (key, value) ↔
      segments key = within ++ segments rest ∧ value = found ∨
        ∃ left, within = segments key ++ left ∧ Crosses value left rest found := by
  have beyond_ne : ∀ {left other}, within = segments key ++ left →
      segments key ≠ within ++ segments other := by
    rintro left other rfl same
    exact Path.append_segments_ne (segments key) left other same.symm
  have inside_iff : ∀ {left}, within = segments key ++ left →
      (segments key = within ++ segments rest ∧ value = found ∨
        (∃ left, within = segments key ++ left ∧ Crosses value left rest found) ↔
          Crosses value left rest found) := by
    intro left split
    refine ⟨?_, fun crosses => .inr ⟨left, split, crosses⟩⟩
    rintro (⟨beyond, _⟩ | ⟨other, split', crosses⟩)
    · exact (beyond_ne split beyond).elim
    · rwa [List.append_cancel_left (split.symm.trans split')]
  by_cases arrived : within = segments key
  · have split : within = segments key ++ [] := by rw [List.append_nil, arrived]
    rw [listedEntry_arrived aim arrived, mem_members_iff ordered, ← Crosses.nil_iff, inside_iff split]
  by_cases toward : ∃ left, left ≠ [] ∧ within = segments key ++ left
  · obtain ⟨left, nonempty, split⟩ := toward
    rw [listedEntry_toward aim nonempty split, later left nonempty split, inside_iff split]
  have outside : ¬ ∃ left, within = segments key ++ left ∧ Crosses value left rest found := by
    rintro ⟨left, split, _⟩
    by_cases empty : left = []
    · exact arrived (by rw [split, empty, List.append_nil])
    · exact toward ⟨left, empty, split⟩
  rw [or_iff_left outside]
  by_cases beyond : ∃ name, segments key = within ++ segments name
  · obtain ⟨name, beyond⟩ := beyond
    rw [listedEntry_beyond aim beyond, List.mem_singleton, Prod.mk.injEq]
    constructor
    · rintro ⟨rfl, rfl⟩
      exact ⟨beyond, rfl⟩
    · rintro ⟨same, rfl⟩
      exact ⟨Path.segments_inj.mp (List.append_cancel_left (same.symm.trans beyond)), rfl⟩
  · rw [listedEntry_apart aim arrived (fun name same => beyond ⟨name, same⟩)
      fun left nonempty split => toward ⟨left, nonempty, split⟩]
    exact iff_of_false List.not_mem_nil fun same => beyond ⟨rest, same.1⟩

end Entry

/-- Behind a key that stays within a path, the rest of the path lies ahead. -/
theorem aim_inside {path here key : String} (proper : Proper path) {within left : List (List Char)}
    (aim : segments path = origin here ++ within) (split : within = segments key ++ left) :
    segments path = origin (Path.child here key) ++ left := by
  have named : key ≠ "" := by
    rintro rfl
    exact proper (by rw [aim, split]; simp [show segments "" = [[]] from rfl])
  rw [origin_child named, List.append_assoc, ← split, aim]

/-- What is listed below a path is what crosses it. -/
theorem mem_listed_iff {tree : Tree} (ordered : tree.Ordered) {path here rest : String} {found : Tree}
    (proper : Proper path) {within : List (List Char)} (aim : segments path = origin here ++ within) :
    (rest, found) ∈ listed path here tree ↔ Crosses tree within rest found := by
  induction tree using Tree.induction generalizing here within with
  | object entries ih =>
    have members := ((ordered_object_iff entries).mp ordered).2
    have ofEntry : ∀ {key value}, (key, value) ∈ entries →
        ((rest, found) ∈ listedEntry path here (key, value) ↔
          segments key = within ++ segments rest ∧ value = found ∨
            ∃ left, within = segments key ++ left ∧ Crosses value left rest found) :=
      fun member => mem_listedEntry_iff_of aim (members _ member) fun left _ split =>
        ih _ member (members _ member) (aim_inside proper aim split)
    rw [listed_object, List.mem_flatMap, Crosses.iff_key]
    constructor
    · rintro ⟨⟨key, value⟩, member, held⟩
      exact ⟨key, value, (mem_members_iff ordered).mp member, (ofEntry member).mp held⟩
    · rintro ⟨key, value, inside, holds⟩
      have member := Entries.mem_of_find? inside
      exact ⟨(key, value), member, (ofEntry member).mpr holds⟩
  | _ =>
    rw [listed, Crosses.iff_key]
    · refine ⟨fun member => (List.not_mem_nil member).elim, ?_⟩
      rintro ⟨key, child, found, _⟩
      cases found
    · exact fun _ impossible => by cases impossible

/-- One entry holds below a path what its key leaves of the path, or what crosses the path behind
it. -/
theorem mem_listedEntry_iff {path here key rest : String} {value found : Tree} (proper : Proper path)
    {within : List (List Char)} (aim : segments path = origin here ++ within)
    (ordered : value.Ordered) : (rest, found) ∈ listedEntry path here (key, value) ↔
      segments key = within ++ segments rest ∧ value = found ∨
        ∃ left, within = segments key ++ left ∧ Crosses value left rest found :=
  mem_listedEntry_iff_of aim ordered fun _ _ split =>
    mem_listed_iff ordered proper (aim_inside proper aim split)

theorem nodup_members {tree : Tree} (ordered : tree.Ordered) : (tree.members.map (·.1)).Nodup := by
  cases tree with
  | object entries =>
    have ascending := ((ordered_object_iff entries).mp ordered).1
    rw [List.Nodup, List.pairwise_map]
    refine ascending.imp ?_
    intro first second before same
    exact String.lt_irrefl _ (same ▸ before)
  | _ => exact List.nodup_nil

/-- What is listed below a path has distinct keys. -/
theorem nodup_listed {tree : Tree} (clear : tree.Clear) {path here : String} (proper : Proper path)
    {within : List (List Char)} (aim : segments path = origin here ++ within) :
    ((listed path here tree).map (·.1)).Nodup := by
  induction tree using Tree.induction generalizing here within with
  | object entries ih =>
    have inside : ∀ {entry}, entry ∈ entries → Entries.find? entry.1 entries = some entry.2 :=
      (mem_members_iff clear.ordered).mp
    -- a key listed for an entry gives a way that begins with this entry
    have way : ∀ {entry}, entry ∈ entries →
        ∀ {rest}, rest ∈ (listedEntry path here entry).map (·.1) →
        ∃ keys, ((Tree.object entries).follow (entry.1 :: keys)).isSome = true ∧
          segmentsOf (entry.1 :: keys) = within ++ segments rest := by
      rintro ⟨key, value⟩ member rest held
      obtain ⟨⟨_, found⟩, listed, rfl⟩ := List.mem_map.mp held
      have valueClear := clear.inside (inside member)
      rcases (mem_listedEntry_iff proper aim valueClear.ordered).mp listed with
        ⟨beyond, rfl⟩ | ⟨left, split, later⟩
      · exact ⟨[], by rw [follow_cons, members, inside member]; rfl, by simpa using beyond⟩
      · obtain ⟨keys, last, followed, _, spelled⟩ := later.reached
        have reached : (Tree.object entries).follow (key :: (keys ++ [last])) = some found :=
          follow_cons_eq_some_iff.mpr ⟨value, inside member, followed⟩
        refine ⟨keys ++ [last], by rw [reached]; rfl, ?_⟩
        rw [Path.segmentsOf_cons, spelled, split, List.append_assoc]
    rw [listed_object, List.map_flatMap, List.nodup_flatMap]
    refine ⟨fun entry member => ?_, ?_⟩
    · obtain ⟨key, value⟩ := entry
      have valueClear := clear.inside (inside member)
      unfold listedEntry
      rw [listedEntries, listedEntries, List.append_nil]
      split
      · exact nodup_members valueClear.ordered
      · split
        · exact List.nodup_singleton _
        · split
          · next toward =>
            obtain ⟨left, _, split⟩ := Path.below?_isSome_iff.mp toward
            have aimed : segments path = origin (Path.child here key) ++ left := by
              rw [split, segments_child, origin_child (clear.key_ne_empty (inside member))]
            exact ih (key, value) member valueClear aimed
          · exact List.nodup_nil
    · refine List.Pairwise.imp_of_mem (fun {first second} member member' before => ?_)
        ((ordered_object_iff entries).mp clear.ordered).1
      refine List.disjoint_left.mpr ?_
      intro rest held held'
      obtain ⟨keys, reached, spelled⟩ := way member held
      obtain ⟨keys', reached', spelled'⟩ := way member' held'
      have ways := clear.unique reached reached' (spelled.trans spelled'.symm)
      exact String.lt_irrefl _ ((List.cons.inj ways).1 ▸ before)
  | _ =>
    rw [listed]
    · exact List.nodup_nil
    · exact fun _ impossible => by cases impossible

end Tree

/-! ### Settings below a path -/

namespace Settings

open Gatehouse.Path (segments segmentsOf Proper)
open Gatehouse.Tree (Crosses)

variable {settings : Settings} {path : String}

theorem get?_eq_some_iff (clear : settings.toTree.Clear) (proper : Proper path) {value : Tree} :
    settings.get? path = some value ↔ settings.toTree.At (segments path) value :=
  Tree.lookup_eq_some_iff clear proper

theorem entries_under (proper : Proper path) :
    (settings.under path).entries = Tree.mergeAll [] (Tree.listed path "" settings.toTree) := by
  unfold under
  rw [if_neg (Path.ne_empty_of_proper proper)]
  exact Tree.gather_eq path settings.toTree "" []

/-- The entries below a path are what crosses it. -/
theorem find?_under_iff (clear : settings.toTree.Clear) (proper : Proper path) {rest : String}
    {value : Tree} : (settings.under path).entries.find? rest = some value ↔
      Crosses settings.toTree (segments path) rest value := by
  have aim : segments path = Tree.origin "" ++ segments path := rfl
  have distinct := Tree.nodup_listed clear proper aim
  rw [entries_under proper, Tree.find?_mergeAll_nil_iff distinct,
    Tree.mem_listed_iff clear.ordered proper aim]

/-- **What stands below a path stands there in the whole settings**, and nothing is lost. -/
theorem at_under_iff (clear : settings.toTree.Clear) (proper : Proper path)
    {pieces : List (List Char)} (nonempty : pieces ≠ []) {value : Tree} :
    (settings.under path).toTree.At pieces value ↔
      settings.toTree.At (segments path ++ pieces) value := by
  constructor
  · rintro ⟨_ | ⟨rest, after⟩, spelled, followed⟩
    · exact (nonempty spelled.symm).elim
    obtain ⟨child, found, onward⟩ := Tree.follow_cons_eq_some_iff.mp followed
    obtain ⟨keys, key, reached, _, crossing⟩ := ((find?_under_iff clear proper).mp found).reached
    refine ⟨keys ++ [key] ++ after, ?_, Tree.follow_append_eq_some_iff.mpr ⟨child, reached, onward⟩⟩
    rw [Path.segmentsOf_append, crossing, ← spelled, Path.segmentsOf_cons, List.append_assoc]
  · rintro ⟨keys, spelled, followed⟩
    obtain ⟨rest, child, after, crosses, onward, rfl⟩ := Crosses.of_follow nonempty followed spelled
    have found := (find?_under_iff clear proper).mpr crosses
    exact ⟨rest :: after, rfl, Tree.follow_cons_eq_some_iff.mpr ⟨child, found, onward⟩⟩

/-- What lies below a path of clear settings is clear. -/
theorem clear_under (clear : settings.toTree.Clear) (proper : Proper path) :
    (settings.under path).toTree.Clear where
  ordered := (settings.under path).ordered
  unique := by
    rintro (_ | ⟨rest, after⟩) (_ | ⟨other, behind⟩) left right same
    · rfl
    · exact (Path.segmentsOf_eq_nil_iff.mp same.symm).symm
    · exact Path.segmentsOf_eq_nil_iff.mp same
    obtain ⟨_, followed⟩ := Option.isSome_iff_exists.mp left
    obtain ⟨_, followed'⟩ := Option.isSome_iff_exists.mp right
    obtain ⟨child, found, onward⟩ := Tree.follow_cons_eq_some_iff.mp followed
    obtain ⟨child', found', onward'⟩ := Tree.follow_cons_eq_some_iff.mp followed'
    obtain ⟨rfl, rfl⟩ := clear.crosses_unique ((find?_under_iff clear proper).mp found)
      ((find?_under_iff clear proper).mp found') (by rw [onward]; rfl) (by rw [onward']; rfl) same
    rfl
  proper := by
    intro keys reached member
    have nonempty : segmentsOf keys ≠ [] := List.ne_nil_of_mem member
    obtain ⟨value, followed⟩ := Option.isSome_iff_exists.mp reached
    obtain ⟨whole, spelled, whole_followed⟩ :=
      (at_under_iff clear proper nonempty).mp ⟨keys, rfl, followed⟩
    refine clear.proper (by rw [whole_followed]; rfl) ?_
    rw [spelled]
    exact List.mem_append_right _ member

/-- Looking up below a path is looking up the longer path. -/
theorem get?_under (clear : settings.toTree.Clear) (proper : Proper path) {rest : String}
    (properRest : Proper rest) :
    (settings.under path).get? rest = settings.get? (path ++ "." ++ rest) := by
  have whole : Proper (path ++ "." ++ rest) := Path.proper_append_iff.mpr ⟨proper, properRest⟩
  apply Option.ext
  intro value
  rw [get?_eq_some_iff (clear_under clear proper) properRest, get?_eq_some_iff clear whole,
    Path.segments_append, at_under_iff clear proper (Path.segments_ne_nil rest)]

end Settings

end Gatehouse
