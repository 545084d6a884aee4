/-
**Spellings of a document.**

A child of a nested object may be moved up beside the object, under the key that joins both names by
a dot. A document has as many spellings as there are choices of such steps. They do not change what
stands at which segments, except that an object goes with its last child.

* `Tree.Lifts`: one child is moved up;
* `Tree.Restores`: every way of a spelling goes back to a way of the original with the same segments;
* **`Tree.exists_restores`**: any number of steps from a clear tree can be restored;
* `Tree.Restores.surface_lookup`: typed readings of the original and of its spelling see the same.
-/

import Mathlib.Logic.Relation
import Gatehouse.Proofs.Settings.Groups

namespace Gatehouse.Tree

open Gatehouse.Path (segments segmentsOf Proper)

/-! ### Moving up -/

/-- Entries with other children under a key; without any the key is dropped. -/
def withChildren (entries : Entries Tree) (key : String) (children : Entries Tree) : Entries Tree :=
  if children.isEmpty then entries.erase key else entries.put key (.object children)

/-- Entries with a child of the object under a key moved up beside this object. -/
def lifted (entries children : Entries Tree) (key name : String) (value : Tree) : Entries Tree :=
  (withChildren entries key (children.erase name)).put (key ++ "." ++ name) value

/-- One child of an object, anywhere in a document, is moved up. Any choice of the children is moved
up one after another. -/
inductive Lifts : Tree → Tree → Prop
  | here {entries children : Entries Tree} {key name : String} {value : Tree}
      (outer : entries.find? key = some (.object children))
      (inner : children.find? name = some value) :
      Lifts (.object entries) (.object (lifted entries children key name value))
  | inside {entries : Entries Tree} {key : String} {value value' : Tree}
      (found : entries.find? key = some value) (lifts : Lifts value value') :
      Lifts (.object entries) (.object (entries.put key value'))
  | item {before after : List Tree} {value value' : Tree} (lifts : Lifts value value') :
      Lifts (.list (before ++ value :: after)) (.list (before ++ value' :: after))

/-- A step inside the only value of an object. -/
theorem Lifts.only {key : String} {value value' : Tree} (lifts : Lifts value value') :
    Lifts (.object [(key, value)]) (.object [(key, value')]) := by
  have found : Entries.find? key [(key, value)] = some value := by rw [Entries.find?, if_pos rfl]
  have step := Lifts.inside found lifts
  rwa [Entries.put, if_pos rfl] at step

theorem find?_withChildren (entries : Entries Tree) (key : String) (children : Entries Tree)
    (name : String) : (withChildren entries key children).find? name =
      if name = key then if children.isEmpty then none else some (.object children)
      else entries.find? name := by
  unfold withChildren
  by_cases empty : children.isEmpty = true
  · rw [if_pos empty, if_pos empty, Entries.find?_erase]
  · rw [if_neg empty, if_neg empty, Entries.find?_put]

theorem find?_lifted (entries children : Entries Tree) (key name : String) (value : Tree)
    (other : String) : (lifted entries children key name value).find? other =
      if other = key ++ "." ++ name then some value
      else if other = key then
        if (children.erase name).isEmpty then none else some (.object (children.erase name))
      else entries.find? other := by
  unfold lifted
  rw [Entries.find?_put, find?_withChildren]

theorem orderedEntries_erase {entries : Entries Tree} (ordered : OrderedEntries entries)
    (key : String) : OrderedEntries (entries.erase key) := by
  rw [orderedEntries_iff] at ordered ⊢
  exact ⟨Entries.ascending_erase ordered.1 key, fun entry member =>
    ordered.2 entry (List.mem_of_mem_filter member)⟩

theorem Lifts.ordered {nested collapsed : Tree} (lifts : Lifts nested collapsed)
    (ordered : nested.Ordered) : collapsed.Ordered := by
  induction lifts with
  | @here entries children key name value outer inner =>
    have childrenOrdered : OrderedEntries children := ordered_of_find? ordered outer
    have remaining : OrderedEntries (withChildren entries key (children.erase name)) := by
      unfold withChildren
      split
      · exact orderedEntries_erase ordered key
      · exact orderedEntries_put ordered key (orderedEntries_erase childrenOrdered name)
    exact orderedEntries_put remaining _ (ordered_of_find? childrenOrdered inner)
  | inside found _ ih => exact orderedEntries_put ordered _ (ih (ordered_of_find? ordered found))
  | item _ ih =>
    rw [ordered_list_iff] at ordered ⊢
    intro item member
    rcases List.mem_append.mp member with before | later
    · exact ordered item (List.mem_append_left _ before)
    · rcases List.mem_cons.mp later with rfl | after
      · exact ih (ordered _ (by simp))
      · exact ordered item (by simp [after])

/-! ### What readings see -/

/-- What typed readings see of a value: nothing of an object, the scalars of a list. -/
def surface : Tree → Option Tree
  | .object _ => none
  | .list items => some (.list (items.filter fun item => item.scalarText?.isSome))
  | tree => some tree

theorem surface_eq_none_iff {tree : Tree} : tree.surface = none ↔ tree.isObject = true := by
  cases tree <;> simp [surface, isObject]

/-- Two values that typed readings cannot tell apart, both with members or both without. -/
structure Alike (first second : Tree) : Prop where
  seen : first.surface = second.surface
  bare : first.members = [] ↔ second.members = []

namespace Alike

variable {first second third : Tree}

theorem refl (tree : Tree) : Alike tree tree := ⟨rfl, Iff.rfl⟩

theorem trans (left : Alike first second) (right : Alike second third) : Alike first third :=
  ⟨left.seen.trans right.seen, left.bare.trans right.bare⟩

theorem isObject_eq (alike : Alike first second) : first.isObject = second.isObject := by
  rw [Bool.eq_iff_iff, ← surface_eq_none_iff, ← surface_eq_none_iff, alike.seen]

end Alike

theorem ne_nil_of_find? {entries : Entries Tree} {key : String} {value : Tree}
    (found : entries.find? key = some value) : entries ≠ [] := by
  rintro rfl
  cases found

/-- Moving a child up leaves an object with members, and changes no scalar of a list. -/
theorem Lifts.alike {nested collapsed : Tree} (lifts : Lifts nested collapsed) :
    Alike nested collapsed := by
  cases lifts with
  | @here entries children key name value outer inner =>
    have put_found := Entries.find?_put_self (key ++ "." ++ name) value
      (withChildren entries key (children.erase name))
    exact ⟨rfl, iff_of_false (ne_nil_of_find? outer) (ne_nil_of_find? put_found)⟩
  | @inside entries key value value' found _ =>
    have put_found := Entries.find?_put_self key value' entries
    exact ⟨rfl, iff_of_false (ne_nil_of_find? found) (ne_nil_of_find? put_found)⟩
  | @item before after value value' lifts =>
    have unseen : ∀ {tree tree' : Tree}, Lifts tree tree' →
        tree.scalarText? = none ∧ tree'.scalarText? = none := by
      intro tree tree' lifts
      cases lifts <;> exact ⟨rfl, rfl⟩
    refine ⟨?_, Iff.rfl⟩
    simp only [surface, List.filter_append, List.filter_cons, (unseen lifts).1, (unseen lifts).2,
      Option.isSome_none, Bool.false_eq_true, if_false]

/-! ### Restoring ways -/

/-- Every way of a spelling goes back to a way of the original: with the same segments, to a value
like it, no two of them to one, and every value without members is reached. -/
structure Restores (restore : List String → List String) (nested collapsed : Tree) : Prop where
  spelled : ∀ keys, segmentsOf (restore keys) = segmentsOf keys
  apart : ∀ {first second}, (collapsed.follow first).isSome = true →
    (collapsed.follow second).isSome = true → restore first = restore second → first = second
  back : ∀ {keys value}, collapsed.follow keys = some value →
    ∃ original, nested.follow (restore keys) = some original ∧ Alike original value
  forth : ∀ {keys value}, nested.follow keys = some value → value.members = [] →
    ∃ others, restore others = keys ∧ (collapsed.follow others).isSome = true

namespace Restores

variable {restore restore' : List String → List String} {nested between collapsed : Tree}

theorem refl (tree : Tree) : Restores id tree tree where
  spelled _ := rfl
  apart _ _ same := same
  back := fun {_ value} followed => ⟨value, followed, .refl value⟩
  forth := fun {keys _} followed _ => ⟨keys, rfl, by rw [followed]; rfl⟩

theorem reached (restores : Restores restore nested collapsed) {keys : List String}
    (reached : (collapsed.follow keys).isSome = true) :
    (nested.follow (restore keys)).isSome = true := by
  obtain ⟨value, followed⟩ := Option.isSome_iff_exists.mp reached
  obtain ⟨original, found, _⟩ := restores.back followed
  rw [found]
  rfl

theorem trans (left : Restores restore nested between) (right : Restores restore' between collapsed) :
    Restores (restore ∘ restore') nested collapsed where
  spelled keys := (left.spelled _).trans (right.spelled keys)
  apart := by
    intro first second reached reached' same
    have between := left.apart (right.reached reached) (right.reached reached') same
    exact right.apart reached reached' between
  back := by
    intro keys value followed
    obtain ⟨middle, found, alike⟩ := right.back followed
    obtain ⟨original, found', alike'⟩ := left.back found
    exact ⟨original, found', alike'.trans alike⟩
  forth := by
    intro keys value followed bare
    obtain ⟨others, rfl, reached⟩ := left.forth followed bare
    obtain ⟨middle, found⟩ := Option.isSome_iff_exists.mp reached
    obtain ⟨original, found', alike⟩ := left.back found
    rw [followed] at found'
    cases found'
    obtain ⟨more, rfl, reached'⟩ := right.forth found (alike.bare.mp bare)
    exact ⟨more, rfl, reached'⟩

/-- A spelling of a clear tree is clear. -/
theorem clear (restores : Restores restore nested collapsed) (nestedClear : nested.Clear)
    (ordered : collapsed.Ordered) : collapsed.Clear := by
  refine ⟨ordered, fun left right same => ?_, fun {keys} reached => ?_⟩
  · have ways := nestedClear.unique (restores.reached left) (restores.reached right) (by
      rw [restores.spelled, restores.spelled, same])
    exact restores.apart left right ways
  · rw [← restores.spelled keys]
    exact nestedClear.proper (restores.reached reached)

end Restores

/-- To tell the ways through a tree apart it is enough to tell those apart that have a key. -/
theorem apart_of_cons {restore : List String → List String} {tree : Tree}
    (atRoot : restore [] = []) (below : ∀ first rest, restore (first :: rest) ≠ [])
    (apart : ∀ {x xs y ys}, (tree.follow (x :: xs)).isSome = true →
      (tree.follow (y :: ys)).isSome = true →
      restore (x :: xs) = restore (y :: ys) → x :: xs = y :: ys)
    {first second : List String} (left : (tree.follow first).isSome = true)
    (right : (tree.follow second).isSome = true) (same : restore first = restore second) :
    first = second := by
  cases first with
  | nil =>
    cases second with
    | nil => rfl
    | cons y ys => exact (below y ys (same.symm.trans atRoot)).elim
  | cons x xs =>
    cases second with
    | nil => exact (below x xs (same.trans atRoot)).elim
    | cons y ys => exact apart left right same

/-! ### One step -/

/-- The way through a joined key goes back through the object whose child was moved up. -/
def splitKey (key name : String) : List String → List String
  | [] => []
  | first :: rest => if first = key ++ "." ++ name then key :: name :: rest else first :: rest

/-- The way behind a key goes back as the value under this key says. -/
def restoreBehind (key : String) (restore : List String → List String) : List String → List String
  | [] => []
  | first :: rest => if first = key then first :: restore rest else first :: rest

section Here

variable {entries children : Entries Tree} {key name : String} {value : Tree}
  (outer : entries.find? key = some (.object children)) (inner : children.find? name = some value)

include outer inner

/-- The joined key is new: otherwise its path had two spellings. -/
theorem joined_absent (clear : (Tree.object entries).Clear) :
    entries.find? (key ++ "." ++ name) = none := by
  cases found : entries.find? (key ++ "." ++ name) with
  | none => rfl
  | some other =>
    have reached : ((Tree.object entries).follow [key ++ "." ++ name]).isSome = true := by
      rw [follow_cons, members, found]
      rfl
    have reached' : ((Tree.object entries).follow [key, name]).isSome = true := by
      rw [follow_cons, members, outer, Option.bind_some, follow_cons, members, inner]
      rfl
    have ways := clear.unique reached reached' (by simp [Path.segments_append])
    exact (Path.joined_ne key name (List.cons.inj ways).1).elim

omit outer inner in
theorem segmentsOf_splitKey (keys : List String) :
    segmentsOf (splitKey key name keys) = segmentsOf keys := by
  cases keys with
  | nil => rfl
  | cons first rest =>
    rw [splitKey]
    split
    · next joined =>
      subst joined
      simp only [Path.segmentsOf_cons, Path.segments_append, List.append_assoc]
    · rfl

omit outer inner in
/-- No two ways go back to one: the child that was moved up is no longer where it was. -/
theorem splitKey_apart {first second : List String}
    (reached : ((Tree.object (lifted entries children key name value)).follow first).isSome = true)
    (reached' : ((Tree.object (lifted entries children key name value)).follow second).isSome = true)
    (same : splitKey key name first = splitKey key name second) : first = second := by
  have gone : ∀ rest, ((Tree.object (lifted entries children key name value)).follow
      (key :: name :: rest)).isSome = false := by
    intro rest
    rw [follow_cons, members, find?_lifted, if_neg (Path.joined_ne key name).symm, if_pos rfl]
    split
    · rfl
    · rw [Option.bind_some, follow_cons, members, Entries.find?_erase, if_pos rfl]
      rfl
  refine apart_of_cons rfl (fun x xs => ?_) (fun {x xs y ys} reached reached' same => ?_)
    reached reached' same
  · rw [splitKey]
    split <;> exact List.cons_ne_nil _ _
  · rw [splitKey, splitKey] at same
    by_cases joined : x = key ++ "." ++ name <;> by_cases joined' : y = key ++ "." ++ name
    · rw [if_pos joined, if_pos joined'] at same
      cases same
      rw [joined, joined']
    · rw [if_pos joined, if_neg joined'] at same
      rw [← same, gone] at reached'
      cases reached'
    · rw [if_neg joined, if_pos joined'] at same
      rw [same, gone] at reached
      cases reached
    · rwa [if_neg joined, if_neg joined'] at same

/-- A way after the step comes from a way before it. -/
theorem follow_splitKey {keys : List String} {found : Tree}
    (followed : (Tree.object (lifted entries children key name value)).follow keys = some found) :
    ∃ original, (Tree.object entries).follow (splitKey key name keys) = some original ∧
      Alike original found := by
  cases keys with
  | nil => cases followed; exact ⟨_, rfl, (Lifts.here outer inner).alike⟩
  | cons first rest =>
    obtain ⟨child, here, onward⟩ := follow_cons_eq_some_iff.mp followed
    rw [members, find?_lifted] at here
    rw [splitKey]
    by_cases joined : first = key ++ "." ++ name
    · rw [if_pos joined] at here ⊢
      cases here
      refine ⟨found, ?_, .refl found⟩
      exact follow_cons_eq_some_iff.mpr ⟨_, outer, follow_cons_eq_some_iff.mpr ⟨_, inner, onward⟩⟩
    rw [if_neg joined] at here ⊢
    by_cases same : first = key
    · subst same
      rw [if_pos rfl] at here
      by_cases empty : (children.erase name).isEmpty = true
      · rw [if_pos empty] at here
        cases here
      rw [if_neg empty] at here
      cases here
      cases rest with
      | nil =>
        -- the object itself has lost a child, but keeps another one
        cases onward
        have nonempty : children.erase name ≠ [] := fun nothing => empty (by rw [nothing]; rfl)
        exact ⟨.object children, follow_cons_eq_some_iff.mpr ⟨_, outer, rfl⟩, rfl,
          iff_of_false (ne_nil_of_find? inner) nonempty⟩
      | cons second rest =>
        obtain ⟨grandchild, there, further⟩ := follow_cons_eq_some_iff.mp onward
        rw [members, Entries.find?_erase] at there
        by_cases moved : second = name
        · rw [if_pos moved] at there
          cases there
        rw [if_neg moved] at there
        refine ⟨found, follow_cons_eq_some_iff.mpr ⟨_, outer, ?_⟩, .refl found⟩
        exact follow_cons_eq_some_iff.mpr ⟨_, there, further⟩
    · rw [if_neg same] at here
      exact ⟨found, follow_cons_eq_some_iff.mpr ⟨_, here, onward⟩, .refl found⟩

/-- Every value without members that was reached before the step is reached after it. -/
theorem follow_lifted (clear : (Tree.object entries).Clear) {keys : List String} {found : Tree}
    (followed : (Tree.object entries).follow keys = some found) (bare : found.members = []) :
    ∃ others, splitKey key name others = keys ∧
      (Tree.object (lifted entries children key name value)).follow others = some found := by
  cases keys with
  | nil => cases followed; exact (ne_nil_of_find? outer bare).elim
  | cons first rest =>
    obtain ⟨child, here, onward⟩ := follow_cons_eq_some_iff.mp followed
    have different : first ≠ key ++ "." ++ name := by
      rintro rfl
      rw [members, joined_absent outer inner clear] at here
      cases here
    by_cases same : first = key
    · subst same
      rw [members, outer] at here
      cases here
      cases rest with
      | nil => cases onward; exact (ne_nil_of_find? inner bare).elim
      | cons second rest =>
        obtain ⟨grandchild, there, further⟩ := follow_cons_eq_some_iff.mp onward
        by_cases moved : second = name
        · subst moved
          rw [members, inner] at there
          cases there
          refine ⟨(first ++ "." ++ second) :: rest, by rw [splitKey, if_pos rfl], ?_⟩
          rw [follow_cons, members, find?_lifted, if_pos rfl, Option.bind_some, further]
        · have kept : (children.erase name).find? second = some grandchild := by
            rw [Entries.find?_erase, if_neg moved]
            exact there
          have remains : (children.erase name).isEmpty = false := by
            rw [List.isEmpty_eq_false_iff]
            exact ne_nil_of_find? kept
          refine ⟨first :: second :: rest, by rw [splitKey, if_neg different], ?_⟩
          rw [follow_cons, members, find?_lifted, if_neg different, if_pos rfl, remains,
            if_neg Bool.false_ne_true, Option.bind_some, follow_cons, members, kept,
            Option.bind_some, further]
    · refine ⟨first :: rest, by rw [splitKey, if_neg different], ?_⟩
      rw [follow_cons, members, find?_lifted, if_neg different, if_neg same,
        show entries.find? first = some child from here, Option.bind_some, onward]

theorem restores_here (clear : (Tree.object entries).Clear) : Restores (splitKey key name)
    (.object entries) (.object (lifted entries children key name value)) where
  spelled := segmentsOf_splitKey
  apart := splitKey_apart
  back := follow_splitKey outer inner
  forth := fun followed bare => by
    obtain ⟨others, spelled, reached⟩ := follow_lifted outer inner clear followed bare
    exact ⟨others, spelled, by rw [reached]; rfl⟩

end Here

section Inside

variable {entries : Entries Tree} {key : String} {value value' : Tree}
  {restore : List String → List String}

theorem segmentsOf_restoreBehind (spelled : ∀ keys, segmentsOf (restore keys) = segmentsOf keys)
    (keys : List String) : segmentsOf (restoreBehind key restore keys) = segmentsOf keys := by
  cases keys with
  | nil => rfl
  | cons first rest =>
    rw [restoreBehind]
    split
    · rw [Path.segmentsOf_cons, spelled, Path.segmentsOf_cons]
    · rfl

theorem follow_put_cons (first : String) (rest : List String) :
    (Tree.object (entries.put key value')).follow (first :: rest) =
      if first = key then value'.follow rest else (Tree.object entries).follow (first :: rest) := by
  rw [follow_cons, members, Entries.find?_put]
  split
  · rw [Option.bind_some]
  · rfl

/-- What a value can be restored to is restored inside an object. -/
theorem restores_inside (found : entries.find? key = some value)
    (restores : Restores restore value value') : Restores (restoreBehind key restore)
      (.object entries) (.object (entries.put key value')) where
  spelled := segmentsOf_restoreBehind restores.spelled
  apart := by
    refine apart_of_cons rfl (fun x xs => ?_) fun {x xs y ys} reached reached' same => ?_
    · rw [restoreBehind]
      split <;> exact List.cons_ne_nil _ _
    · rw [follow_put_cons] at reached reached'
      rw [restoreBehind, restoreBehind] at same
      by_cases here : x = key <;> by_cases here' : y = key
      · rw [if_pos here] at same reached
        rw [if_pos here'] at same reached'
        rw [here, here', restores.apart reached reached' (List.cons.inj same).2]
      · rw [if_pos here, if_neg here'] at same
        exact (here' ((List.cons.inj same).1 ▸ here)).elim
      · rw [if_neg here, if_pos here'] at same
        exact (here ((List.cons.inj same).1 ▸ here')).elim
      · rwa [if_neg here, if_neg here'] at same
  back := by
    intro keys copy followed
    cases keys with
    | nil =>
      cases followed
      have put_found := Entries.find?_put_self key value' entries
      exact ⟨.object entries, rfl, rfl,
        iff_of_false (ne_nil_of_find? found) (ne_nil_of_find? put_found)⟩
    | cons first rest =>
      rw [follow_put_cons] at followed
      rw [restoreBehind]
      by_cases here : first = key
      · rw [if_pos here] at followed ⊢
        obtain ⟨original, onward, alike⟩ := restores.back followed
        exact ⟨original, follow_cons_eq_some_iff.mpr ⟨value, here ▸ found, onward⟩, alike⟩
      · rw [if_neg here] at followed ⊢
        exact ⟨copy, followed, .refl copy⟩
  forth := by
    intro keys original followed bare
    cases keys with
    | nil => cases followed; exact (ne_nil_of_find? found bare).elim
    | cons first rest =>
      by_cases here : first = key
      · subst here
        rw [follow_cons, members, found, Option.bind_some] at followed
        obtain ⟨others, rfl, reached⟩ := restores.forth followed bare
        refine ⟨first :: others, by rw [restoreBehind, if_pos rfl], ?_⟩
        rwa [follow_put_cons, if_pos rfl]
      · refine ⟨first :: rest, by rw [restoreBehind, if_neg here], ?_⟩
        rw [follow_put_cons, if_neg here, followed]
        rfl

end Inside

theorem restores_of_no_members {nested collapsed : Tree} (alike : Alike nested collapsed)
    (bare : nested.members = []) : Restores id nested collapsed where
  spelled _ := rfl
  apart _ _ same := same
  back := by
    intro keys value followed
    obtain rfl := follow_of_no_members (alike.bare.mp bare) followed
    cases followed
    exact ⟨nested, rfl, alike⟩
  forth := by
    intro keys value followed _
    obtain rfl := follow_of_no_members bare followed
    exact ⟨[], rfl, rfl⟩

/-- **One step from a clear tree can be restored.** -/
theorem Lifts.restores {nested collapsed : Tree} (lifts : Lifts nested collapsed)
    (clear : nested.Clear) : ∃ restore, Restores restore nested collapsed := by
  induction lifts with
  | here outer inner => exact ⟨_, restores_here outer inner clear⟩
  | inside found lifts ih =>
    obtain ⟨restore, restores⟩ := ih (clear.inside found)
    exact ⟨_, restores_inside found restores⟩
  | item lifts => exact ⟨id, restores_of_no_members (Lifts.item lifts).alike rfl⟩

/-- **Any number of steps from a clear tree can be restored**, and lead to a clear tree. -/
theorem exists_restores {nested collapsed : Tree}
    (steps : Relation.ReflTransGen Lifts nested collapsed) (clear : nested.Clear) :
    collapsed.Clear ∧ ∃ restore, Restores restore nested collapsed := by
  induction steps with
  | refl => exact ⟨clear, id, .refl nested⟩
  | tail _ step ih =>
    obtain ⟨between, restore, restores⟩ := ih
    obtain ⟨restore', restores'⟩ := step.restores between
    exact ⟨restores'.clear between (step.ordered between.ordered), _, restores.trans restores'⟩

/-! ### Reading a spelling -/

namespace Restores

variable {restore : List String → List String} {nested collapsed : Tree}
  (restores : Restores restore nested collapsed)

include restores

theorem at_back {pieces : List (List Char)} {value : Tree} (stands : collapsed.At pieces value) :
    ∃ original, nested.At pieces original ∧ Alike original value := by
  obtain ⟨keys, rfl, followed⟩ := stands
  obtain ⟨original, found, alike⟩ := restores.back followed
  exact ⟨original, ⟨restore keys, restores.spelled keys, found⟩, alike⟩

theorem at_forth {pieces : List (List Char)} {value : Tree} (stands : nested.At pieces value)
    (bare : value.members = []) : ∃ copy, collapsed.At pieces copy ∧ Alike value copy := by
  obtain ⟨keys, rfl, followed⟩ := stands
  obtain ⟨others, rfl, reached⟩ := restores.forth followed bare
  obtain ⟨copy, found⟩ := Option.isSome_iff_exists.mp reached
  obtain ⟨original, found', alike⟩ := restores.back found
  rw [followed] at found'
  cases found'
  exact ⟨copy, ⟨others, (restores.spelled others).symm, found⟩, alike⟩

/-- **A typed reading of the spelling sees what it sees in the original.** -/
theorem surface_lookup (clear : nested.Clear) (collapsedClear : collapsed.Clear) {path : String}
    (proper : Proper path) :
    (collapsed.lookup path).bind surface = (nested.lookup path).bind surface := by
  cases copied : collapsed.lookup path with
  | some copy =>
    obtain ⟨original, stands, alike⟩ :=
      restores.at_back ((lookup_eq_some_iff collapsedClear proper).mp copied)
    rw [(lookup_eq_some_iff clear proper).mpr stands]
    exact alike.seen.symm
  | none =>
    cases found : nested.lookup path with
    | none => rfl
    | some original =>
      cases object : original.isObject with
      | true => exact (surface_eq_none_iff.mpr object).symm
      | false =>
        have stands := (lookup_eq_some_iff clear proper).mp found
        obtain ⟨copy, there, _⟩ := restores.at_forth stands (members_of_not_object object)
        rw [(lookup_eq_some_iff collapsedClear proper).mpr there] at copied
        cases copied

end Restores

end Gatehouse.Tree
