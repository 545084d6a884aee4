/-
**Which spelling counts.**

A dotted path may be spelled by several ways through a tree, with its dots between keys or inside
them. A look-up prefers the longest key at each level, and comes back to a shorter one where this
leads nowhere; of all the ways with the segments of the path it takes the one that is first in this
order.

* `Path.Outranks`: the order of the ways with the same segments;
* `Path.pairwise_cuts`: the cuts of a path by the length of their keys;
* `Tree.Preferred`: the way that comes before all others with its segments;
* **`Tree.lookup_eq_some_iff_preferred`**: a look-up finds what is behind the preferred way.
-/

import Gatehouse.Proofs.Settings.Places

namespace Gatehouse

namespace Path

/-! ### Longer keys first -/

/-- A way is written with longer keys than another one: where the two first differ, its key has more
segments. -/
inductive Outranks : List String → List String → Prop
  | key {first second : String} {rest others : List String}
      (longer : (segments second).length < (segments first).length) :
      Outranks (first :: rest) (second :: others)
  | later {key : String} {rest others : List String} (outranks : Outranks rest others) :
      Outranks (key :: rest) (key :: others)

theorem Outranks.asymm {first second : List String} (outranks : Outranks first second) :
    ¬ Outranks second first := by
  induction outranks with
  | key longer =>
    rintro (shorter | _)
    · exact Nat.lt_asymm longer shorter
    · exact Nat.lt_irrefl _ longer
  | later _ ih =>
    rintro (longer | later)
    · exact Nat.lt_irrefl _ longer
    · exact ih later

/-- A key with further keys behind it has less segments than all of them. -/
theorem length_segments_lt {key path : String} {rest : List String}
    (split : segmentsOf (key :: rest) = segments path) (more : rest ≠ []) :
    (segments key).length < (segments path).length := by
  rw [← split, segmentsOf_cons, List.length_append]
  have nonempty : segmentsOf rest ≠ [] := fun empty => more (segmentsOf_eq_nil_iff.mp empty)
  exact Nat.lt_add_of_pos_right (List.length_pos_iff.mpr nonempty)

/-- The whole path as one key comes before every other way with its segments. -/
theorem eq_or_outranks_of_whole {path : String} {others : List String}
    (same : segmentsOf others = segments path) : others = [path] ∨ Outranks [path] others := by
  cases others with
  | nil => exact (segments_ne_nil path same.symm).elim
  | cons key rest =>
    by_cases last : rest = []
    · subst last
      rw [segmentsOf_cons, segmentsOf_nil, List.append_nil, segments_inj] at same
      exact .inl (by rw [same])
    · exact .inr (.key (length_segments_lt same last))

theorem pairwise_cutsFromLeft (path : List Char) :
    (cutsFromLeft path).Pairwise fun first second => ∃ between,
      second.1 = first.1 ++ '.' :: between := by
  induction path with
  | nil => exact List.Pairwise.nil
  | cons c rest ih =>
    rw [cutsFromLeft]
    have later : ∀ extend : List Char × List Char → List Char × List Char,
        (∀ cut, (extend cut).1 = c :: cut.1) → ((cutsFromLeft rest).map extend).Pairwise
          fun first second => ∃ between, second.1 = first.1 ++ '.' :: between := by
      intro extend prepends
      refine List.pairwise_map.mpr (ih.imp ?_)
      rintro first second ⟨between, same⟩
      exact ⟨between, by rw [prepends, prepends, same, List.cons_append]⟩
    split
    · next dot =>
      subst dot
      refine List.pairwise_cons.mpr ⟨fun cut member => ?_, later _ fun _ => rfl⟩
      obtain ⟨⟨before, after⟩, _, rfl⟩ := List.mem_map.mp member
      exact ⟨before, rfl⟩
    · exact later _ fun _ => rfl

/-- The cuts of a path, with the longest keys first. -/
theorem pairwise_cuts (path : String) : (cuts path).Pairwise fun first second =>
    (segments second.1).length < (segments first.1).length := by
  unfold cuts
  rw [List.pairwise_map, List.pairwise_reverse]
  refine (pairwise_cutsFromLeft path.toList).imp ?_
  rintro ⟨shorter, _⟩ ⟨longer, _⟩ ⟨between, same⟩
  have split : String.ofList longer = String.ofList shorter ++ "." ++ String.ofList between := by
    apply String.toList_inj.mp
    simp [show longer = shorter ++ '.' :: between from same]
  show (segments (String.ofList shorter)).length < (segments (String.ofList longer)).length
  rw [split, segments_append, List.length_append]
  exact Nat.lt_add_of_pos_right (List.length_pos_iff.mpr (segments_ne_nil _))

end Path

namespace Tree

open Gatehouse.Path (segments segmentsOf Proper Outranks)

/-! ### The preferred way -/

/-- A way to a value that comes before all others with the same segments. -/
structure Preferred (tree : Tree) (keys : List String) (value : Tree) : Prop where
  followed : tree.follow keys = some value
  outranks : ∀ {others}, segmentsOf others = segmentsOf keys → (tree.follow others).isSome = true →
    others = keys ∨ Outranks keys others

theorem Preferred.unique {tree first second : Tree} {keys others : List String}
    (left : tree.Preferred keys first) (right : tree.Preferred others second)
    (same : segmentsOf keys = segmentsOf others) : keys = others := by
  have one := left.outranks same.symm (by rw [right.followed]; rfl)
  have two := right.outranks same (by rw [left.followed]; rfl)
  rcases one with same | before
  · exact same.symm
  · rcases two with same | after
    · exact same
    · exact (before.asymm after).elim

theorem Preferred.whole {tree value : Tree} {path : String}
    (here : Entries.find? path tree.members = some value) : tree.Preferred [path] value where
  followed := follow_cons_eq_some_iff.mpr ⟨value, here, rfl⟩
  outranks same _ := Path.eq_or_outranks_of_whole (by simpa using same)

/-- A cut whose key has a preferred way behind it, while the whole path is no key and the cuts before
it lead nowhere. -/
theorem Preferred.cut {tree child value : Tree} {name rest : String} {keys : List String}
    {earlier later : List (String × String)}
    (notWhole : Entries.find? (name ++ "." ++ rest) tree.members = none)
    (cuts : Path.cuts (name ++ "." ++ rest) = earlier ++ (name, rest) :: later)
    (nowhere : ∀ cut ∈ earlier,
      ((Entries.find? cut.1 tree.members).bind fun value => value.lookup cut.2) = none)
    (inside : Entries.find? name tree.members = some child) (spelled : segmentsOf keys = segments rest)
    (preferred : child.Preferred keys value) : tree.Preferred (name :: keys) value where
  followed := follow_cons_eq_some_iff.mpr ⟨child, inside, preferred.followed⟩
  outranks := by
    intro others same reached
    rw [Path.segmentsOf_cons, spelled, ← Path.segments_append] at same
    cases others with
    | nil => exact (Path.segments_ne_nil _ same.symm).elim
    | cons key behind =>
      obtain ⟨found, followed⟩ := Option.isSome_iff_exists.mp reached
      obtain ⟨other, otherInside, onward⟩ := follow_cons_eq_some_iff.mp followed
      by_cases last : behind = []
      · subst last
        rw [Path.segmentsOf_cons, Path.segmentsOf_nil, List.append_nil] at same
        rw [Path.segments_inj.mp same, notWhole] at otherInside
        cases otherInside
      obtain ⟨below, belowSpelled⟩ := Path.exists_suffix
        (fun empty => last (Path.segmentsOf_eq_nil_iff.mp empty)) same.symm
      have split : name ++ "." ++ rest = key ++ "." ++ below := by
        rw [← Path.segments_inj, Path.segments_append key, belowSpelled, ← same,
          Path.segmentsOf_cons]
      have member : (key, below) ∈ earlier ++ (name, rest) :: later := by
        rw [← cuts]
        exact Path.mem_cuts_iff.mpr split
      have ordered := Path.pairwise_cuts (name ++ "." ++ rest)
      rw [cuts] at ordered
      rcases List.mem_append.mp member with before | there
      · have fails := nowhere _ before
        rw [otherInside, Option.bind_some] at fails
        have succeeds := lookup_isSome_of_at ⟨behind, belowSpelled.symm, onward⟩
        rw [fails] at succeeds
        cases succeeds
      · rcases List.mem_cons.mp there with here | after
        · obtain ⟨rfl, rfl⟩ := Prod.mk.inj here
          obtain rfl : other = child := Option.some.inj (otherInside.symm.trans inside)
          rcases preferred.outranks (belowSpelled.symm.trans spelled.symm) (by rw [onward]; rfl) with
            rfl | outranks
          · exact .inl rfl
          · exact .inr (.later outranks)
        · exact .inr (.key ((List.pairwise_cons.mp (List.pairwise_append.mp ordered).2.1).1 _ after))

/-- A look-up finds what is behind the preferred way. -/
theorem preferred_of_lookup {tree value : Tree} {path : String} (proper : Proper path)
    (found : tree.lookup path = some value) :
    ∃ keys, segmentsOf keys = segments path ∧ tree.Preferred keys value := by
  induction tree using Tree.induction generalizing path with
  | object entries ih =>
    rw [lookup_eq _ (Path.ne_empty_of_proper proper)] at found
    rcases Option.or_eq_some_iff.mp found with here | ⟨notWhole, later⟩
    · exact ⟨[path], by simp, .whole here⟩
    · obtain ⟨earlier, ⟨name, rest⟩, others, cuts, below, nowhere⟩ :=
        List.findSome?_eq_some_iff.mp later
      obtain ⟨child, inside, reached⟩ := Option.bind_eq_some_iff.mp below
      have split : path = name ++ "." ++ rest := Path.mem_cuts_iff.mp (by rw [cuts]; simp)
      subst split
      obtain ⟨_, properRest⟩ := Path.proper_append_iff.mp proper
      obtain ⟨keys, spelled, preferred⟩ :=
        ih (name, child) (Entries.mem_of_find? inside) properRest reached
      exact ⟨name :: keys, by rw [Path.segmentsOf_cons, spelled, Path.segments_append],
        .cut notWhole cuts nowhere inside spelled preferred⟩
  | _ =>
    rw [lookup_of_no_members rfl (Path.ne_empty_of_proper proper)] at found
    cases found

/-- **A look-up finds exactly what is behind the preferred way** among all those that have the
segments of the path. -/
theorem lookup_eq_some_iff_preferred {tree value : Tree} {path : String} (proper : Proper path) :
    tree.lookup path = some value ↔
      ∃ keys, segmentsOf keys = segments path ∧ tree.Preferred keys value := by
  refine ⟨preferred_of_lookup proper, ?_⟩
  rintro ⟨keys, spelled, preferred⟩
  obtain ⟨found, looked⟩ := Option.isSome_iff_exists.mp
    (lookup_isSome_of_at ⟨keys, spelled, preferred.followed⟩)
  obtain ⟨others, spelled', taken⟩ := preferred_of_lookup proper looked
  obtain rfl := preferred.unique taken (spelled.trans spelled'.symm)
  rw [looked, ← taken.followed, preferred.followed]

end Tree

end Gatehouse
