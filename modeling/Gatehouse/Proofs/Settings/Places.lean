/-
**Places in a tree.**

A way through a tree is a list of keys, followed one after another. Two ways that spell the same
segments name the same dotted path. In a clear tree this does not happen: there is one way at most,
and looking up a path finds exactly what stands at its segments.

* `Tree.follow`: the value behind a way; `Tree.At`: a value at some segments;
* `Tree.at_of_lookup`, `Tree.lookup_isSome_of_at`: a look-up is sound and misses nothing;
* `Tree.Clear`: every dotted path is spelled by one way at most, without empty segments;
* `Tree.lookup_eq_some_iff`: looking up in a clear tree.
-/

import Gatehouse.Settings.Basic
import Gatehouse.Proofs.Settings.Segments

namespace Gatehouse.Tree

open Gatehouse.Path (segments segmentsOf Proper)

/-! ### Ways -/

/-- The value behind a way of keys. -/
def follow (tree : Tree) : List String → Option Tree
  | [] => some tree
  | key :: rest => (Entries.find? key tree.members).bind fun value => value.follow rest

@[simp] theorem follow_nil (tree : Tree) : tree.follow [] = some tree := rfl

theorem follow_cons (tree : Tree) (key : String) (rest : List String) :
    tree.follow (key :: rest) =
      (Entries.find? key tree.members).bind fun value => value.follow rest := rfl

theorem follow_cons_eq_some_iff {tree found : Tree} {key : String} {rest : List String} :
    tree.follow (key :: rest) = some found ↔
      ∃ value, Entries.find? key tree.members = some value ∧ value.follow rest = some found :=
  Option.bind_eq_some_iff

theorem follow_append (tree : Tree) (first second : List String) :
    tree.follow (first ++ second) = (tree.follow first).bind fun value => value.follow second := by
  induction first generalizing tree with
  | nil => rfl
  | cons key rest ih =>
    rw [List.cons_append, follow_cons, follow_cons]
    cases Entries.find? key tree.members with
    | none => rfl
    | some value => exact ih value

theorem follow_append_eq_some_iff {tree found : Tree} {first second : List String} :
    tree.follow (first ++ second) = some found ↔
      ∃ value, tree.follow first = some value ∧ value.follow second = some found := by
  rw [follow_append]
  exact Option.bind_eq_some_iff

/-- Nothing lies behind a tree without members. -/
theorem follow_of_no_members {tree found : Tree} (empty : tree.members = []) {keys : List String}
    (reached : tree.follow keys = some found) : keys = [] := by
  cases keys with
  | nil => rfl
  | cons key rest => rw [follow_cons, empty] at reached; cases reached

/-- A value stands at some segments: a way with these segments leads to it. -/
def At (tree : Tree) (pieces : List (List Char)) (value : Tree) : Prop :=
  ∃ keys, segmentsOf keys = pieces ∧ tree.follow keys = some value

/-! ### Looking up -/

theorem lookup_of_no_members {tree : Tree} (empty : tree.members = []) {path : String}
    (named : path ≠ "") : tree.lookup path = none := by
  cases tree with
  | object entries =>
    change entries = [] at empty
    subst empty
    simp only [lookup, if_neg named, Entries.find?, lookupUnder, List.findSome?_eq_none_iff,
      implies_true]
  | _ => simp only [lookup, if_neg named]

/-- A look-up at a path with a name: the whole path as a key first, then its cuts. -/
theorem lookup_eq (tree : Tree) {path : String} (named : path ≠ "") :
    tree.lookup path = (Entries.find? path tree.members).or
      ((Path.cuts path).findSome? fun cut =>
        (Entries.find? cut.1 tree.members).bind fun value => value.lookup cut.2) := by
  cases tree with
  | object entries =>
    rw [lookup, if_neg named]
    simp only [lookupUnder_eq, members]
    cases Entries.find? path entries <;> rfl
  | _ =>
    rw [lookup_of_no_members rfl named]
    symm
    simp only [members, Entries.find?_nil, Option.none_or, List.findSome?_eq_none_iff,
      Option.bind_none, implies_true]

/-- What a look-up finds stands at the segments of the path. -/
theorem at_of_lookup {tree value : Tree} {path : String} (proper : Proper path)
    (found : tree.lookup path = some value) : tree.At (segments path) value := by
  induction tree using Tree.induction generalizing path with
  | object entries ih =>
    rw [lookup_eq _ (Path.ne_empty_of_proper proper)] at found
    rcases Option.or_eq_some_iff.mp found with here | ⟨_, later⟩
    · exact ⟨[path], by simp, by rw [follow_cons, here]; rfl⟩
    · obtain ⟨⟨name, rest⟩, cut, below⟩ := List.exists_of_findSome?_eq_some later
      obtain ⟨child, inside, reached⟩ := Option.bind_eq_some_iff.mp below
      rw [Path.mem_cuts_iff] at cut
      subst cut
      obtain ⟨_, properRest⟩ := Path.proper_append_iff.mp proper
      obtain ⟨keys, same, followed⟩ :=
        ih (name, child) (Entries.mem_of_find? inside) properRest reached
      refine ⟨name :: keys, by rw [Path.segmentsOf_cons, same, Path.segments_append], ?_⟩
      exact follow_cons_eq_some_iff.mpr ⟨child, inside, followed⟩
  | _ =>
    rw [lookup_of_no_members rfl (Path.ne_empty_of_proper proper)] at found
    cases found

/-- Where something stands at the segments of a path, a look-up finds something. -/
theorem lookup_isSome_of_at {tree value : Tree} {path : String}
    (stands : tree.At (segments path) value) : (tree.lookup path).isSome = true := by
  obtain ⟨keys, same, followed⟩ := stands
  induction keys generalizing tree path with
  | nil => exact (Path.segments_ne_nil path same.symm).elim
  | cons key rest ih =>
    by_cases named : path = ""
    · subst named
      cases tree <;> simp [lookup]
    obtain ⟨child, inside, later⟩ := follow_cons_eq_some_iff.mp followed
    rw [lookup_eq _ named]
    by_cases last : rest = []
    · subst last
      have whole : key = path := Path.segments_inj.mp (by simpa using same)
      rw [← whole, inside]
      rfl
    · obtain ⟨below, spelled⟩ := Path.exists_suffix
        (fun nothing => last (Path.segmentsOf_eq_nil_iff.mp nothing)) same.symm
      have split : path = key ++ "." ++ below := by
        rw [← Path.segments_inj, Path.segments_append, spelled, ← same, Path.segmentsOf_cons]
      have reached := ih spelled.symm later
      have cut : (key, below) ∈ Path.cuts path := Path.mem_cuts_iff.mpr split
      rw [Option.isSome_or, Bool.or_eq_true, List.isSome_findSome?, List.any_eq_true]
      exact Or.inr ⟨(key, below), cut, by rw [inside]; exact reached⟩

/-! ### Clear trees -/

/-- Every dotted path is spelled at most once, and has no empty segment; the keys are in order. -/
structure Clear (tree : Tree) : Prop where
  ordered : tree.Ordered
  unique : ∀ {first second}, (tree.follow first).isSome = true → (tree.follow second).isSome = true →
    segmentsOf first = segmentsOf second → first = second
  proper : ∀ {keys}, (tree.follow keys).isSome = true → [] ∉ segmentsOf keys

namespace Clear

variable {tree : Tree}

/-- At most one value stands at any segments. -/
theorem at_unique (clear : tree.Clear) {pieces : List (List Char)} {first second : Tree}
    (left : tree.At pieces first) (right : tree.At pieces second) : first = second := by
  obtain ⟨keys, same, followed⟩ := left
  obtain ⟨others, same', followed'⟩ := right
  have ways := clear.unique (by rw [followed]; rfl) (by rw [followed']; rfl) (same.trans same'.symm)
  rw [ways, followed'] at followed
  exact (Option.some.inj followed).symm

/-- The values inside a clear tree are clear. -/
theorem inside (clear : tree.Clear) {key : String} {value : Tree}
    (found : Entries.find? key tree.members = some value) : value.Clear where
  ordered := ordered_of_mem_members clear.ordered (key, value) (Entries.mem_of_find? found)
  unique := by
    intro first second left right same
    have extend : ∀ keys, tree.follow (key :: keys) = value.follow keys := fun keys => by
      rw [follow_cons, found]; rfl
    have ways : key :: first = key :: second := clear.unique (by rwa [extend]) (by rwa [extend]) (by
      rw [Path.segmentsOf_cons, Path.segmentsOf_cons, same])
    exact (List.cons.inj ways).2
  proper := by
    intro keys reached member
    have extend : tree.follow (key :: keys) = value.follow keys := by
      rw [follow_cons, found]; rfl
    exact clear.proper (by rwa [extend]) (List.mem_append_right _ member)

/-- In a clear tree the keys at the top are not empty. -/
theorem key_ne_empty (clear : tree.Clear) {key : String} {value : Tree}
    (found : Entries.find? key tree.members = some value) : key ≠ "" := by
  rintro rfl
  have reached : (tree.follow [""]).isSome = true := by rw [follow_cons, found]; rfl
  exact clear.proper reached (by decide)

end Clear

/-- Looking up a path in a clear tree finds what stands at its segments. -/
theorem lookup_eq_some_iff {tree value : Tree} (clear : tree.Clear) {path : String}
    (proper : Proper path) : tree.lookup path = some value ↔ tree.At (segments path) value := by
  refine ⟨at_of_lookup proper, fun stands => ?_⟩
  obtain ⟨found, looked⟩ := Option.isSome_iff_exists.mp (lookup_isSome_of_at stands)
  rw [looked, clear.at_unique stands (at_of_lookup proper looked)]

end Gatehouse.Tree
