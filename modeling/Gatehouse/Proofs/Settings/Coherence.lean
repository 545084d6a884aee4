/-
**Documents whose leaves do not collide.**

A document may say the same object in several places, under a nested key and under a dotted one, as
long as the two say different things about it: no value other than an object may stand where something
else stands, or where something else has to pass. Merging what lies below a path then loses no leaf and
makes up none.

* `Tree.Coherent`: no leaf's path is that of another value, or the beginning of it; it is decided by
  going through the ways of a tree (`Tree.ways`);
* `Tree.PartOf`: a tree whose ways come from another one; it is coherent where that one is;
* `Tree.Coherent.lookup_eq_some_iff`: looking up a leaf;
* **`Settings.follow_under_leaf_iff`**: the leaves below a path; `Settings.coherent_under`.
-/

import Gatehouse.Proofs.Settings.Precedence

namespace Gatehouse

theorem Path.Leaves.unique {within : List (List Char)} {keys below others : List String}
    (first : Leaves within keys below) (second : Leaves within keys others) : below = others := by
  induction first generalizing others with
  | here beyond =>
    cases second with
    | here beyond' => rw [segments_inj.mp (List.append_cancel_left (beyond.symm.trans beyond'))]
    | inside _ => exact (append_segments_ne _ _ _ beyond.symm).elim
  | @inside left key keys below _ ih =>
    generalize same : segments key ++ left = within at second
    cases second with
    | here beyond' =>
      subst same
      exact (append_segments_ne _ _ _ beyond'.symm).elim
    | inside later => exact ih (List.append_cancel_left same ▸ later)

namespace Tree

open Gatehouse.Path (segments segmentsOf Proper Leaves)

/-! ### Coherent trees -/

/-- No leaf has the path of another value, or a beginning of it; and no path has an empty segment. -/
structure Coherent (tree : Tree) : Prop where
  apart : ∀ {keys others leaf}, tree.follow keys = some leaf → leaf.isObject = false →
    (tree.follow others).isSome = true → segmentsOf keys <+: segmentsOf others → others = keys
  proper : ∀ {keys}, (tree.follow keys).isSome = true → [] ∉ segmentsOf keys

mutual

/-- The ways through a tree, each with the value it leads to. -/
def ways : Tree → List (List String × Tree)
  | .object entries => ([], .object entries) :: entryWays entries
  | tree => [([], tree)]

/-- The ways that begin with the key of an entry. -/
def entryWays : List (String × Tree) → List (List String × Tree)
  | [] => []
  | (key, value) :: rest =>
    value.ways.map (fun way => (key :: way.1, way.2)) ++ entryWays rest

end

theorem mem_entryWays_iff {entries : Entries Tree} {keys : List String} {value : Tree} :
    (keys, value) ∈ entryWays entries ↔
      ∃ key child rest, (key, child) ∈ entries ∧ keys = key :: rest ∧ (rest, value) ∈ child.ways := by
  induction entries with
  | nil => simp [entryWays]
  | cons entry others ih =>
    obtain ⟨name, held⟩ := entry
    simp only [entryWays, List.mem_append, List.mem_map, ih, List.mem_cons, Prod.exists, Prod.mk.injEq]
    constructor
    · rintro (⟨rest, _, inside, rfl, rfl⟩ | ⟨key, child, rest, member, rfl, inside⟩)
      · exact ⟨name, held, rest, .inl ⟨rfl, rfl⟩, rfl, inside⟩
      · exact ⟨key, child, rest, .inr member, rfl, inside⟩
    · rintro ⟨key, child, rest, ⟨rfl, rfl⟩ | member, rfl, inside⟩
      · exact .inl ⟨rest, value, inside, rfl, rfl⟩
      · exact .inr ⟨key, child, rest, member, rfl, inside⟩

/-- The ways through a tree are those that can be followed. -/
theorem mem_ways_iff {tree value : Tree} (ordered : tree.Ordered) {keys : List String} :
    (keys, value) ∈ tree.ways ↔ tree.follow keys = some value := by
  induction tree using Tree.induction generalizing keys with
  | object entries ih =>
    obtain ⟨ascending, members⟩ := (ordered_object_iff entries).mp ordered
    rw [ways, List.mem_cons, mem_entryWays_iff]
    cases keys with
    | nil => simp [eq_comm]
    | cons key rest =>
      rw [follow_cons_eq_some_iff]
      constructor
      · rintro (impossible | ⟨_, child, _, member, same, inside⟩)
        · cases impossible
        · cases same
          exact ⟨child, Entries.find?_of_mem ascending member,
            (ih _ member (members _ member)).mp inside⟩
      · rintro ⟨child, found, onward⟩
        have member := Entries.mem_of_find? found
        exact .inr ⟨key, child, rest, member, rfl, (ih _ member (members _ member)).mpr onward⟩
  | _ =>
    cases keys <;> simp [ways, follow_cons, members, eq_comm]

/-- A tree is coherent when no two of its ways are in conflict. -/
theorem coherent_iff {tree : Tree} (ordered : tree.Ordered) : tree.Coherent ↔
    ∀ way ∈ tree.ways, (∀ piece ∈ segmentsOf way.1, piece ≠ []) ∧
      (way.2.isObject = false → ∀ other ∈ tree.ways, segmentsOf way.1 <+: segmentsOf other.1 →
        other.1 = way.1) := by
  constructor
  · rintro coherent ⟨keys, value⟩ member
    have followed := (mem_ways_iff ordered).mp member
    have proper := coherent.proper (by rw [followed]; rfl)
    refine ⟨fun _ within empty => proper (empty ▸ within), ?_⟩
    rintro leaf ⟨others, other⟩ member' starts
    exact coherent.apart followed leaf (by rw [(mem_ways_iff ordered).mp member']; rfl) starts
  · intro fine
    refine ⟨fun {keys others leaf} followed isLeaf reached starts => ?_, fun {keys} reached => ?_⟩
    · obtain ⟨other, followed'⟩ := Option.isSome_iff_exists.mp reached
      exact (fine _ ((mem_ways_iff ordered).mpr followed)).2 isLeaf _
        ((mem_ways_iff ordered).mpr followed') starts
    · obtain ⟨value, followed⟩ := Option.isSome_iff_exists.mp reached
      exact fun within => (fine _ ((mem_ways_iff ordered).mpr followed)).1 _ within rfl

/-- The ways in a tree are what is left of ways in another one behind the given segments. -/
structure PartOf (part tree : Tree) (within : List (List Char))
    (Left : List String → List String → Prop) : Prop where
  isObject : part.isObject = true
  spelled : ∀ {below whole}, Left below whole → segmentsOf whole = within ++ segmentsOf below
  unique : ∀ {below behind whole}, Left below whole → Left behind whole → below = behind
  leaf : ∀ {below leaf}, part.follow below = some leaf → leaf.isObject = false →
    ∃ whole, Left below whole ∧ tree.follow whole = some leaf
  reached : ∀ {below}, below ≠ [] → (part.follow below).isSome = true →
    ∃ whole, Left below whole ∧ (tree.follow whole).isSome = true

/-- Every part of a coherent tree is coherent. -/
theorem Coherent.of_partOf {part tree : Tree} {within : List (List Char)}
    {Left : List String → List String → Prop} (coherent : tree.Coherent)
    (drawn : part.PartOf tree within Left) : part.Coherent where
  apart := by
    intro below others leaf followed isLeaf reached starts
    have nonempty : below ≠ [] := by
      rintro rfl
      obtain rfl := Option.some.inj followed
      exact Bool.false_ne_true (isLeaf.symm.trans drawn.isObject)
    have further : others ≠ [] := by
      rintro rfl
      exact nonempty (Path.segmentsOf_eq_nil_iff.mp (List.prefix_nil.mp starts))
    obtain ⟨whole, left, there⟩ := drawn.leaf followed isLeaf
    obtain ⟨way, left', there'⟩ := drawn.reached further reached
    have onward : segmentsOf whole <+: segmentsOf way := by
      rw [drawn.spelled left, drawn.spelled left']
      exact (List.prefix_append_right_inj within).mpr starts
    obtain rfl := coherent.apart there isLeaf there' onward
    exact drawn.unique left' left
  proper := by
    intro below reached empty
    have nonempty : below ≠ [] := by
      rintro rfl
      cases empty
    obtain ⟨whole, left, there⟩ := drawn.reached nonempty reached
    apply coherent.proper there
    rw [drawn.spelled left]
    exact List.mem_append_right within empty

namespace Coherent

variable {tree leaf : Tree} (coherent : tree.Coherent) (isLeaf : leaf.isObject = false)

include coherent isLeaf

/-- No other way has the segments of the way to a leaf. -/
theorem eq_of_spelled {keys others : List String} (followed : tree.follow keys = some leaf)
    (reached : (tree.follow others).isSome = true) (same : segmentsOf others = segmentsOf keys) :
    others = keys :=
  coherent.apart followed isLeaf reached (same ▸ List.prefix_rfl)

/-- Nothing else stands where a leaf stands. -/
theorem eq_of_at {pieces : List (List Char)} (stands : tree.At pieces leaf) {other : Tree}
    (stands' : tree.At pieces other) : other = leaf := by
  obtain ⟨keys, same, followed⟩ := stands
  obtain ⟨others, same', followed'⟩ := stands'
  have ways := coherent.eq_of_spelled isLeaf followed (by rw [followed']; rfl) (same'.trans same.symm)
  rw [ways, followed] at followed'
  exact (Option.some.inj followed').symm

/-- The way to a leaf is the preferred one, for there is no other. -/
theorem preferred {keys : List String} (followed : tree.follow keys = some leaf) :
    tree.Preferred keys leaf where
  followed := followed
  outranks same reached := .inl (coherent.eq_of_spelled isLeaf followed reached same)

/-- A look-up finds a leaf exactly where it stands. -/
theorem lookup_eq_some_iff {path : String} (proper : Proper path) :
    tree.lookup path = some leaf ↔ tree.At (segments path) leaf := by
  refine ⟨at_of_lookup proper, fun stands => ?_⟩
  obtain ⟨found, looked⟩ := Option.isSome_iff_exists.mp (lookup_isSome_of_at stands)
  rw [looked, coherent.eq_of_at isLeaf stands (at_of_lookup proper looked)]

end Coherent

end Tree

/-! ### Below a path -/

namespace Settings

open Gatehouse.Path (segments segmentsOf Proper Leaves)

variable {settings : Settings} {path : String}

instance (settings : Settings) : Decidable settings.toTree.Coherent :=
  decidable_of_iff _ (Tree.coherent_iff settings.ordered_toTree).symm

/-- What is left of the way to a leaf is not contested: nothing else has its segments, and only objects
stand on the way. -/
theorem uncontested_of_leaf (coherent : settings.toTree.Coherent) {keys below : List String}
    {leaf : Tree} (followed : settings.toTree.follow keys = some leaf) (isLeaf : leaf.isObject = false)
    (leaves : Leaves (segments path) keys below) : settings.Uncontested path keys below where
  outranks := by
    rintro others value ⟨way, leaves', followed'⟩ same
    have spelled : segmentsOf way = segmentsOf keys := by rw [leaves.spelled, leaves'.spelled, same]
    obtain rfl := coherent.eq_of_spelled isLeaf followed (by rw [followed']; rfl) spelled
    exact .inl (leaves'.unique leaves)
  passable := by
    intro way others value leaves' followed' _ stays further
    by_contra object
    obtain ⟨more, rfl⟩ := stays
    have starts : segmentsOf way <+: segmentsOf keys := by
      rw [leaves.spelled, leaves'.spelled, Path.segmentsOf_append, ← List.append_assoc]
      exact List.prefix_append _ _
    obtain rfl := coherent.apart followed' (Bool.eq_false_of_not_eq_true object) (by rw [followed]; rfl) starts
    exact further (leaves'.unique leaves)

/-- **The leaves below a path** are the leaves behind it, under what is left of their ways. -/
theorem follow_under_leaf_iff (coherent : settings.toTree.Coherent) (proper : Proper path) {leaf : Tree}
    (isLeaf : leaf.isObject = false) {below : List String} :
    (settings.under path).toTree.follow below = some leaf ↔ settings.HasBelow path below leaf := by
  constructor
  · intro followed
    rw [toTree_under proper] at followed
    cases below with
    | nil =>
      cases followed
      cases isLeaf
    | cons name after =>
      rcases Tree.origin_of_leaf_mergeAll isLeaf (ordered_of_mem_listed proper) followed with
        nothing | ⟨child, member, onward⟩
      · cases nothing
      · have crosses := (Tree.mem_listed_iff settings.ordered_toTree proper rfl).mp member
        exact Tree.Crosses.iff_leaves.mp ⟨child, crosses, onward⟩
  · rintro ⟨keys, leaves, followed⟩
    exact follow_under_of_uncontested proper (coherent.preferred isLeaf followed) isLeaf leaves
      (uncontested_of_leaf coherent followed isLeaf leaves)

/-- What lies below a path is part of coherent settings. -/
theorem partOf_under (coherent : settings.toTree.Coherent) (proper : Proper path) :
    (settings.under path).toTree.PartOf settings.toTree (segments path)
      fun below whole => Leaves (segments path) whole below where
  isObject := rfl
  spelled := Leaves.spelled
  unique := Leaves.unique
  leaf followed isLeaf := (follow_under_leaf_iff coherent proper isLeaf).mp followed
  reached := by
    intro below nonempty reached
    obtain ⟨_, whole, leaves, followed⟩ := exists_hasBelow_of_follow_under proper nonempty reached
    exact ⟨whole, leaves, by rw [followed]; rfl⟩

theorem coherent_under (coherent : settings.toTree.Coherent) (proper : Proper path) :
    (settings.under path).toTree.Coherent :=
  coherent.of_partOf (partOf_under coherent proper)

end Settings

end Gatehouse
