/-
**Paths divided into keys.**

A key may join several segments of a path, so that a path can be divided into keys in many ways.
Each of them is a way through a tree, on which objects stand inside objects up to a value, or on
which some key is missing. A look-up misses none of the ways that lead to a value, and of these it
takes the one with the longest keys.

* `Path.Division`: the segments of a path in groups, and `Path.keysOf`: a key for each group;
* `Path.Division.exists_of_keys`: the keys with the segments of a path are those of a division;
* `Path.lex_of_outranks`: ways are ranked by the lengths of their keys, lexicographically;
* **`Settings.get?_of_divisions`**: what a look-up finds.
-/

import Gatehouse.Proofs.Settings.Priority

namespace Gatehouse

namespace Path

/-! ### Divisions -/

/-- The key that joins some segments by dots. -/
def joined (group : List (List Char)) : String := String.ofList (['.'].intercalate group)

/-- The keys of groups of segments. -/
def keysOf (groups : List (List (List Char))) : List String := groups.map joined

/-- A division of a path: its segments, in their order, in groups with at least one segment. -/
structure Division (path : String) (groups : List (List (List Char))) : Prop where
  some : ∀ group ∈ groups, group ≠ []
  whole : groups.flatten = segments path

theorem joined_segments (key : String) : joined (segments key) = key := by
  rw [joined, segments, Text.join_splitAll, String.ofList_toList]

theorem keysOf_map_segments (keys : List String) : keysOf (keys.map segments) = keys := by
  rw [keysOf, List.map_map]
  exact List.map_id'' joined_segments keys

namespace Division

variable {path : String} {groups others : List (List (List Char))}

theorem segments_joined (division : Division path groups) {group : List (List Char)}
    (member : group ∈ groups) : segments (joined group) = group := by
  have dotless : ∀ piece ∈ group, '.' ∉ piece := fun piece inside =>
    dotless_of_mem_segments (division.whole ▸ List.mem_flatten_of_mem member inside)
  obtain ⟨key, same⟩ := exists_segments_eq (division.some group member) dotless
  rw [← same, joined_segments]

/-- A division is determined by its keys. -/
theorem map_segments_keysOf (division : Division path groups) :
    (keysOf groups).map segments = groups := by
  rw [keysOf, List.map_map]
  calc groups.map (segments ∘ joined) = groups.map id :=
        List.map_congr_left fun _ member => division.segments_joined member
    _ = groups := List.map_id groups

theorem eq_of_keysOf_eq (first : Division path groups) (second : Division path others)
    (same : keysOf groups = keysOf others) : groups = others := by
  rw [← first.map_segments_keysOf, same, second.map_segments_keysOf]

theorem segmentsOf_keysOf (division : Division path groups) :
    segmentsOf (keysOf groups) = segments path := by
  rw [segmentsOf, List.flatMap_def, division.map_segments_keysOf, division.whole]

/-- The keys with the segments of a path are those of a division. -/
theorem exists_of_keys {keys : List String} (spelled : segmentsOf keys = segments path) :
    ∃ groups, Division path groups ∧ keysOf groups = keys := by
  refine ⟨keys.map segments, ⟨fun group member => ?_, ?_⟩, keysOf_map_segments keys⟩
  · obtain ⟨key, _, rfl⟩ := List.mem_map.mp member
    exact segments_ne_nil key
  · rw [← List.flatMap_def, ← spelled, segmentsOf]

end Division

/-! ### Lengths of keys -/

/-- Of two keys that begin the same path, the one with more segments is the longer one. -/
theorem length_lt_of_segments {first second : String} {rest others : List (List Char)}
    (same : segments first ++ rest = segments second ++ others)
    (longer : (segments second).length < (segments first).length) :
    second.length < first.length := by
  rcases List.append_eq_append_iff.mp same with ⟨more, split, _⟩ | ⟨more, split, _⟩
  · rw [split, List.length_append] at longer
    exact (Nat.not_lt.mpr (Nat.le_add_right _ _) longer).elim
  · have beyond : more ≠ [] := by
      rintro rfl
      rw [split, List.append_nil] at longer
      exact Nat.lt_irrefl _ longer
    obtain ⟨behind, spelled⟩ := exists_suffix beyond split
    have joined : first = second ++ "." ++ behind := by
      rw [← segments_inj, segments_append, spelled, split]
    rw [joined, String.length_append, String.length_append]
    exact Nat.lt_of_lt_of_le (Nat.lt_succ_self _) (Nat.le_add_right _ _)

/-- The order of the ways with the same segments is the lexicographic one of the lengths of their
keys. -/
theorem lex_of_outranks {keys others : List String} (outranks : Outranks keys others)
    (same : segmentsOf keys = segmentsOf others) :
    List.Lex (· < ·) (others.map String.length) (keys.map String.length) := by
  induction outranks with
  | key longer => exact .rel (length_lt_of_segments same longer)
  | later _ ih => exact .cons (ih (List.append_cancel_left same))

end Path

namespace Tree

open Gatehouse.Path (Proper Division keysOf segmentsOf segments)

/-! ### Looking up -/

/-- A division that leads to a value, with the longest keys among all that lead to one. -/
structure Longest (tree : Tree) (path : String) (groups : List (List (List Char))) (value : Tree) :
    Prop where
  division : Division path groups
  followed : tree.follow (keysOf groups) = some value
  greatest : ∀ {others}, Division path others → (tree.follow (keysOf others)).isSome = true →
    others = groups ∨
      List.Lex (· < ·) ((keysOf others).map String.length) ((keysOf groups).map String.length)

theorem Longest.unique {tree first second : Tree} {path : String}
    {groups others : List (List (List Char))} (left : tree.Longest path groups first)
    (right : tree.Longest path others second) : first = second := by
  have same : groups = others := by
    rcases left.greatest right.division (by rw [right.followed]; rfl) with same | before
    · exact same.symm
    · rcases right.greatest left.division (by rw [left.followed]; rfl) with same | after
      · exact same
      · exact (List.lex_asymm Nat.lt_asymm before after).elim
  have followed := left.followed
  rw [same, right.followed] at followed
  exact (Option.some.inj followed).symm

/-- The keys of the preferred way are the longest ones. -/
theorem Preferred.longest {tree value : Tree} {path : String} {keys : List String}
    (preferred : tree.Preferred keys value) (spelled : segmentsOf keys = segments path) :
    ∃ groups, tree.Longest path groups value := by
  obtain ⟨groups, division, rfl⟩ := Division.exists_of_keys spelled
  refine ⟨groups, division, preferred.followed, fun other reached => ?_⟩
  have same := other.segmentsOf_keysOf.trans spelled.symm
  rcases preferred.outranks same reached with equal | outranks
  · exact .inl (other.eq_of_keysOf_eq division equal)
  · exact .inr (Path.lex_of_outranks outranks same.symm)

theorem lookup_isSome_of_division {tree value : Tree} {path : String}
    {groups : List (List (List Char))} (division : Division path groups)
    (followed : tree.follow (keysOf groups) = some value) : (tree.lookup path).isSome = true :=
  lookup_isSome_of_at ⟨keysOf groups, division.segmentsOf_keysOf, followed⟩

/-- A look-up finds exactly what is behind the longest keys. -/
theorem lookup_eq_some_iff_longest {tree value : Tree} {path : String} (proper : Proper path) :
    tree.lookup path = some value ↔ ∃ groups, tree.Longest path groups value := by
  have longest_of_lookup : ∀ {found}, tree.lookup path = some found →
      ∃ groups, tree.Longest path groups found := by
    intro found looked
    obtain ⟨keys, spelled, preferred⟩ := preferred_of_lookup proper looked
    exact preferred.longest spelled
  refine ⟨longest_of_lookup, ?_⟩
  rintro ⟨groups, longest⟩
  obtain ⟨found, looked⟩ := Option.isSome_iff_exists.mp
    (lookup_isSome_of_division longest.division longest.followed)
  obtain ⟨others, taken⟩ := longest_of_lookup looked
  rw [looked, taken.unique longest]

end Tree

namespace Settings

open Gatehouse.Path (Proper Division keysOf)

/-- **What a look-up finds.** It finds a value exactly if some division of the path into keys leads
to one, through objects inside objects; and it finds the value behind the division with the longest
keys, in the lexicographic order of their lengths, among all those that lead to a value. -/
theorem get?_of_divisions (settings : Settings) {path : String} (proper : Proper path) :
    ((settings.get? path).isSome = true ↔
      ∃ groups, Division path groups ∧ (settings.toTree.follow (keysOf groups)).isSome = true) ∧
    ∀ value, settings.get? path = some value ↔
      ∃ groups, settings.toTree.Longest path groups value := by
  refine ⟨⟨fun found => ?_, ?_⟩, fun value => Tree.lookup_eq_some_iff_longest proper⟩
  · obtain ⟨value, found⟩ := Option.isSome_iff_exists.mp found
    obtain ⟨groups, longest⟩ := (Tree.lookup_eq_some_iff_longest proper).mp found
    exact ⟨groups, longest.division, by rw [longest.followed]; rfl⟩
  · rintro ⟨groups, division, reached⟩
    obtain ⟨value, followed⟩ := Option.isSome_iff_exists.mp reached
    exact Tree.lookup_isSome_of_division division followed

/-- A captain behind two keys, where the longest first key is a dead end and the shortest keys lead
to another captain. -/
def crewBehindDeadEnd : Settings := .ofTree (.object [
  ("ship", .object [("crew", .object [("captain", .text "spock")]),
    ("crew.captain", .text "kirk")]),
  ("ship.crew", .object [("pilot", .text "sulu")])])

theorem get?_crewBehindDeadEnd :
    Proper "ship.crew.captain" ∧
    crewBehindDeadEnd.toTree.follow ["ship", "crew", "captain"] = some (.text "spock") ∧
    crewBehindDeadEnd.get? "ship.crew.captain" = some (.text "kirk") ∧
    ∃ groups, crewBehindDeadEnd.toTree.Longest "ship.crew.captain" groups (.text "kirk") := by
  have proper : Proper "ship.crew.captain" := by decide
  have found : crewBehindDeadEnd.get? "ship.crew.captain" = some (.text "kirk") := by
    decide +kernel
  exact ⟨proper, by decide +kernel, found,
    ((get?_of_divisions crewBehindDeadEnd proper).2 _).mp found⟩

end Settings

end Gatehouse
