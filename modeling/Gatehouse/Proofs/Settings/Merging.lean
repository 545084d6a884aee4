/-
**What merging leaves.**

Entries are merged into an object one after another; an object that meets an object is merged into it
key by key, and any other value replaces what was there. What stands behind a way of keys afterwards
was there before or comes from one of the entries. A leaf stays behind its way as long as the entries
that come later have nothing there and no other leaf on the way.

* `Tree.Spares`: a tree that takes nothing away behind a way when it is merged in;
* `Tree.follow_mergeAll_of_spared`: a value that is spared stays;
* **`Tree.follow_mergeAll_of_leaf`**: a leaf that is merged in and then spared stands behind its way;
* **`Tree.origin_of_follow_mergeAll`**: nothing stands behind a way that no entry has;
* **`Tree.origin_of_leaf_mergeAll`**: and no leaf that is not the leaf of an entry.
-/

import Gatehouse.Proofs.Settings.Groups

namespace Gatehouse.Tree

/-! ### Single insertions -/

theorem find?_insertMerged_of_ne {entries : Entries Tree} {key name : String} (other : name ≠ key)
    (value : Tree) : (insertMerged entries key value).find? name = entries.find? name := by
  cases value with
  | object incoming =>
    rw [insertMerged]
    split <;> exact Entries.find?_put_of_ne other _ _
  | _ => exact Entries.find?_put_of_ne other _ _

/-- An object meets what is under its key: objects are merged, other values are replaced. -/
theorem find?_insertMerged_object (entries : Entries Tree) (key : String) (incoming : Entries Tree) :
    (∃ existing, entries.find? key = some (.object existing) ∧
      (insertMerged entries key (.object incoming)).find? key =
        some (.object (mergeAll existing incoming))) ∨
    (insertMerged entries key (.object incoming)).find? key = some (.object incoming) := by
  rw [insertMerged]
  split
  · next existing found => exact .inl ⟨existing, found, Entries.find?_put_self _ _ _⟩
  · exact .inr (Entries.find?_put_self _ _ _)

theorem find?_insertMerged_leaf (entries : Entries Tree) (key : String) {value : Tree}
    (leaf : value.isObject = false) : (insertMerged entries key value).find? key = some value := by
  cases value with
  | object _ => cases leaf
  | _ => exact Entries.find?_put_self _ _ _

theorem follow_object_cons {entries : Entries Tree} {name : String} {value : Tree}
    (found : entries.find? name = some value) (keys : List String) :
    (Tree.object entries).follow (name :: keys) = value.follow keys := by
  rw [follow_cons, members, found, Option.bind_some]

/-- What can be followed further is an object. -/
theorem eq_object_of_follow_cons {tree found : Tree} {key : String} {rest : List String}
    (followed : tree.follow (key :: rest) = some found) : ∃ entries, tree = .object entries := by
  rw [← isObject_iff]
  by_contra leaf
  rw [Bool.not_eq_true] at leaf
  cases follow_of_no_members (members_of_not_object leaf) followed

theorem ordered_of_follow {tree value : Tree} (ordered : tree.Ordered) {keys : List String}
    (followed : tree.follow keys = some value) : value.Ordered := by
  induction keys generalizing tree with
  | nil => exact Option.some.inj followed ▸ ordered
  | cons key rest ih =>
    obtain ⟨child, found, later⟩ := follow_cons_eq_some_iff.mp followed
    exact ih (ordered_of_mem_members ordered (key, child) (Entries.mem_of_find? found)) later

/-! ### Sparing a way -/

/-- A tree has nothing behind a way, and nothing but objects on it. -/
def Spares (tree : Tree) (keys : List String) : Prop :=
  ∀ before value, before <+: keys → tree.follow before = some value →
    value.isObject = true ∧ before ≠ keys

theorem Spares.exists_object {tree : Tree} {keys : List String} (spares : tree.Spares keys) :
    keys ≠ [] ∧ ∃ entries, tree = .object entries := by
  obtain ⟨object, further⟩ := spares [] tree List.nil_prefix rfl
  exact ⟨further.symm, isObject_iff.mp object⟩

theorem Spares.inside {entries : Entries Tree} {key : String} {rest : List String} {value : Tree}
    (spares : (Tree.object entries).Spares (key :: rest)) (found : entries.find? key = some value) :
    value.Spares rest := by
  intro before reached stays followed
  have onward : (Tree.object entries).follow (key :: before) = some reached := by
    rw [follow_object_cons found, followed]
  obtain ⟨object, further⟩ := spares _ _ ((List.prefix_cons_inj key).mpr stays) onward
  exact ⟨object, fun same => further (same ▸ rfl)⟩

section Spared

variable {keys : List String} {found : Tree}

/-- If inserting one value that spares a way keeps what is behind it, so does merging several. -/
theorem follow_mergeAll_of_insert (keeps : ∀ {entries : Entries Tree} {name key : String} {value : Tree},
      (Tree.object entries).follow (name :: keys) = some found → (key = name → value.Spares keys) →
      value.Ordered →
      (Tree.object (insertMerged entries key value)).follow (name :: keys) = some found)
    {entries incoming : Entries Tree} {name : String}
    (followed : (Tree.object entries).follow (name :: keys) = some found)
    (spared : ∀ {value}, (name, value) ∈ incoming → value.Spares keys)
    (ordered : ∀ entry ∈ incoming, entry.2.Ordered) :
    (Tree.object (mergeAll entries incoming)).follow (name :: keys) = some found := by
  induction incoming generalizing entries with
  | nil => rwa [mergeAll]
  | cons entry rest ih =>
    obtain ⟨key, value⟩ := entry
    rw [mergeAll]
    refine ih (keeps followed (fun same => ?_) (ordered _ List.mem_cons_self))
      (fun member => spared (List.mem_cons_of_mem _ member))
      fun entry member => ordered entry (List.mem_cons_of_mem _ member)
    exact spared (same ▸ List.mem_cons_self)

theorem follow_insertMerged_of_spared {entries : Entries Tree} {name key : String} {value : Tree}
    (followed : (Tree.object entries).follow (name :: keys) = some found)
    (spared : key = name → value.Spares keys) (ordered : value.Ordered) :
    (Tree.object (insertMerged entries key value)).follow (name :: keys) = some found := by
  induction keys generalizing entries name key value with
  | nil =>
    have other : name ≠ key := fun same => (spared same.symm).exists_object.1 rfl
    rwa [follow_cons, members, find?_insertMerged_of_ne other]
  | cons first rest ih =>
    by_cases same : key = name
    · subst same
      obtain ⟨_, incoming, rfl⟩ := (spared rfl).exists_object
      obtain ⟨standing, inside, onward⟩ := follow_cons_eq_some_iff.mp followed
      obtain ⟨old, rfl⟩ := eq_object_of_follow_cons onward
      have merged : (insertMerged entries key (.object incoming)).find? key =
          some (.object (mergeAll old incoming)) := by
        rw [insertMerged, show entries.find? key = _ from inside]
        exact Entries.find?_put_self _ _ _
      rw [follow_object_cons merged]
      obtain ⟨ascending, members⟩ := (ordered_object_iff incoming).mp ordered
      exact follow_mergeAll_of_insert ih onward
        (fun member => (spared rfl).inside (Entries.find?_of_mem ascending member)) members
    · rwa [follow_cons, members, find?_insertMerged_of_ne (Ne.symm same)]

/-- **What is spared stays.** -/
theorem follow_mergeAll_of_spared {entries incoming : Entries Tree} {name : String}
    (followed : (Tree.object entries).follow (name :: keys) = some found)
    (spared : ∀ {value}, (name, value) ∈ incoming → value.Spares keys)
    (ordered : ∀ entry ∈ incoming, entry.2.Ordered) :
    (Tree.object (mergeAll entries incoming)).follow (name :: keys) = some found :=
  follow_mergeAll_of_insert follow_insertMerged_of_spared followed spared ordered

end Spared

/-! ### Merging in a leaf -/

section Leaf

variable {keys : List String} {found : Tree}

theorem follow_mergeAll_of_leaf_of_insert
    (sets : ∀ {entries : Entries Tree} {key : String} {value : Tree}, value.follow keys = some found →
      value.Ordered → (Tree.object (insertMerged entries key value)).follow (key :: keys) = some found)
    {entries before later : Entries Tree} {name : String} {value : Tree}
    (followed : value.follow keys = some found)
    (spared : ∀ {value}, (name, value) ∈ later → value.Spares keys)
    (ordered : ∀ entry ∈ before ++ (name, value) :: later, entry.2.Ordered) :
    (Tree.object (mergeAll entries (before ++ (name, value) :: later))).follow (name :: keys) =
      some found := by
  obtain ⟨_, ordered⟩ := List.forall_mem_append.mp ordered
  obtain ⟨valueOrdered, ordered⟩ := List.forall_mem_cons.mp ordered
  rw [mergeAll_append, mergeAll]
  exact follow_mergeAll_of_spared (sets followed valueOrdered) spared ordered

theorem follow_insertMerged_of_leaf (leaf : found.isObject = false) {entries : Entries Tree}
    {key : String} {value : Tree} (followed : value.follow keys = some found)
    (ordered : value.Ordered) :
    (Tree.object (insertMerged entries key value)).follow (key :: keys) = some found := by
  induction keys generalizing entries key value with
  | nil =>
    obtain rfl := Option.some.inj followed
    exact follow_object_cons (find?_insertMerged_leaf entries key leaf) []
  | cons first rest ih =>
    obtain ⟨incoming, rfl⟩ := eq_object_of_follow_cons followed
    rcases find?_insertMerged_object entries key incoming with ⟨existing, _, merged⟩ | replaced
    · rw [follow_object_cons merged]
      obtain ⟨child, inside, onward⟩ := follow_cons_eq_some_iff.mp followed
      obtain ⟨before, later, split⟩ := List.append_of_mem (Entries.mem_of_find? inside)
      obtain ⟨ascending, members⟩ := (ordered_object_iff incoming).mp ordered
      have split : incoming = before ++ (first, child) :: later := split
      subst split
      -- the key comes once, so that no later entry has anything on the way
      have once := List.pairwise_cons.mp (List.pairwise_append.mp ascending).2.1
      exact follow_mergeAll_of_leaf_of_insert ih onward
        (fun {other} member => (String.lt_irrefl _ (once.1 (first, other) member)).elim) members
    · rwa [follow_object_cons replaced]

/-- **A leaf that is merged in and then spared stands behind its way.** -/
theorem follow_mergeAll_of_leaf (leaf : found.isObject = false) {entries before later : Entries Tree}
    {name : String} {value : Tree} (followed : value.follow keys = some found)
    (spared : ∀ {value}, (name, value) ∈ later → value.Spares keys)
    (ordered : ∀ entry ∈ before ++ (name, value) :: later, entry.2.Ordered) :
    (Tree.object (mergeAll entries (before ++ (name, value) :: later))).follow (name :: keys) =
      some found :=
  follow_mergeAll_of_leaf_of_insert (follow_insertMerged_of_leaf leaf) followed spared ordered

end Leaf

/-! ### Where merged values come from -/

section Origin

variable {keys : List String} {holds : Tree → Prop}

/-- A way leads to a value with a property. -/
def LeadsTo (tree : Tree) (keys : List String) (holds : Tree → Prop) : Prop :=
  ∃ found, tree.follow keys = some found ∧ holds found

theorem leadsTo_true_iff {tree : Tree} :
    (tree.LeadsTo keys fun _ => True) ↔ (tree.follow keys).isSome = true := by
  simp [LeadsTo, Option.isSome_iff_exists]

theorem leadsTo_object_cons {entries : Entries Tree} {name : String} {value : Tree}
    (found : entries.find? name = some value) :
    (Tree.object entries).LeadsTo (name :: keys) holds ↔ value.LeadsTo keys holds := by
  unfold LeadsTo
  rw [follow_object_cons found]

/-- Where a single insertion adds nothing but what its value has, merging several adds nothing but what
they have. -/
theorem origin_of_leadsTo_mergeAll_of_insert
    (origin : ∀ {entries : Entries Tree} {name key : String} {value : Tree}, value.Ordered →
      (Tree.object (insertMerged entries key value)).LeadsTo (name :: keys) holds →
      (Tree.object entries).LeadsTo (name :: keys) holds ∨ name = key ∧ value.LeadsTo keys holds)
    {entries incoming : Entries Tree} {name : String} (ordered : ∀ entry ∈ incoming, entry.2.Ordered)
    (leads : (Tree.object (mergeAll entries incoming)).LeadsTo (name :: keys) holds) :
    (Tree.object entries).LeadsTo (name :: keys) holds ∨
      ∃ value, (name, value) ∈ incoming ∧ value.LeadsTo keys holds := by
  induction incoming generalizing entries with
  | nil => rw [mergeAll] at leads; exact .inl leads
  | cons entry rest ih =>
    obtain ⟨key, value⟩ := entry
    obtain ⟨valueOrdered, ordered⟩ := List.forall_mem_cons.mp ordered
    rw [mergeAll] at leads
    rcases ih ordered leads with inserted | ⟨value, member, later⟩
    · rcases origin valueOrdered inserted with before | ⟨rfl, here⟩
      · exact .inl before
      · exact .inr ⟨value, List.mem_cons_self, here⟩
    · exact .inr ⟨value, List.mem_cons_of_mem _ member, later⟩

/-- Inserting a value adds nothing but what the value has, if merging two objects does not. -/
theorem origin_of_leadsTo_insertMerged_of
    (inside : ∀ {existing incoming : Entries Tree}, (Tree.object incoming).Ordered →
      (Tree.object (mergeAll existing incoming)).LeadsTo keys holds →
      (Tree.object existing).LeadsTo keys holds ∨ (Tree.object incoming).LeadsTo keys holds)
    {entries : Entries Tree} {name key : String} {value : Tree} (ordered : value.Ordered)
    (leads : (Tree.object (insertMerged entries key value)).LeadsTo (name :: keys) holds) :
    (Tree.object entries).LeadsTo (name :: keys) holds ∨ name = key ∧ value.LeadsTo keys holds := by
  by_cases same : name = key
  swap
  · unfold LeadsTo at leads
    rw [follow_cons, members, find?_insertMerged_of_ne same] at leads
    exact .inl leads
  subst same
  cases object : value.isObject with
  | false =>
    rw [leadsTo_object_cons (find?_insertMerged_leaf entries name object)] at leads
    exact .inr ⟨rfl, leads⟩
  | true =>
    obtain ⟨incoming, rfl⟩ := isObject_iff.mp object
    rcases find?_insertMerged_object entries name incoming with ⟨existing, found, merged⟩ | replaced
    · rw [leadsTo_object_cons merged] at leads
      rw [leadsTo_object_cons found]
      exact (inside ordered leads).imp_right fun here => ⟨rfl, here⟩
    · rw [leadsTo_object_cons replaced] at leads
      exact .inr ⟨rfl, leads⟩

/-- What a merged object has, the object that was merged in has. -/
def Survives (holds : Tree → Prop) : Prop :=
  ∀ existing incoming : Entries Tree, holds (.object (mergeAll existing incoming)) →
    holds (.object incoming)

theorem origin_of_leadsTo_insertMerged (survives : Survives holds) {entries : Entries Tree}
    {name key : String} {value : Tree} (ordered : value.Ordered)
    (leads : (Tree.object (insertMerged entries key value)).LeadsTo (name :: keys) holds) :
    (Tree.object entries).LeadsTo (name :: keys) holds ∨ name = key ∧ value.LeadsTo keys holds := by
  induction keys generalizing entries name key value with
  | nil =>
    refine origin_of_leadsTo_insertMerged_of (fun _ leads => .inr ?_) ordered leads
    obtain ⟨_, same, held⟩ := leads
    obtain rfl := Option.some.inj same
    exact ⟨_, rfl, survives _ _ held⟩
  | cons first rest ih =>
    refine origin_of_leadsTo_insertMerged_of (fun {_ incoming} ordered leads => ?_) ordered leads
    obtain ⟨ascending, members⟩ := (ordered_object_iff incoming).mp ordered
    refine (origin_of_leadsTo_mergeAll_of_insert ih members leads).imp_right ?_
    rintro ⟨child, member, onward⟩
    exact (leadsTo_object_cons (Entries.find?_of_mem ascending member)).mpr onward

theorem origin_of_leadsTo_mergeAll (survives : Survives holds) {entries incoming : Entries Tree}
    {name : String} (ordered : ∀ entry ∈ incoming, entry.2.Ordered)
    (leads : (Tree.object (mergeAll entries incoming)).LeadsTo (name :: keys) holds) :
    (Tree.object entries).LeadsTo (name :: keys) holds ∨
      ∃ value, (name, value) ∈ incoming ∧ value.LeadsTo keys holds :=
  origin_of_leadsTo_mergeAll_of_insert (origin_of_leadsTo_insertMerged survives) ordered leads

/-- **What stands behind a way after merging** was there before or comes from one of the entries. -/
theorem origin_of_follow_mergeAll {entries incoming : Entries Tree} {name : String}
    (ordered : ∀ entry ∈ incoming, entry.2.Ordered)
    (followed : ((Tree.object (mergeAll entries incoming)).follow (name :: keys)).isSome = true) :
    ((Tree.object entries).follow (name :: keys)).isSome = true ∨
      ∃ value, (name, value) ∈ incoming ∧ (value.follow keys).isSome = true := by
  simp only [← leadsTo_true_iff] at followed ⊢
  exact origin_of_leadsTo_mergeAll (fun _ _ _ => trivial) ordered followed

/-- **A leaf behind a way after merging** was that leaf before or is one of an entry. -/
theorem origin_of_leaf_mergeAll {entries incoming : Entries Tree} {name : String} {leaf : Tree}
    (isLeaf : leaf.isObject = false) (ordered : ∀ entry ∈ incoming, entry.2.Ordered)
    (followed : (Tree.object (mergeAll entries incoming)).follow (name :: keys) = some leaf) :
    (Tree.object entries).follow (name :: keys) = some leaf ∨
      ∃ value, (name, value) ∈ incoming ∧ value.follow keys = some leaf := by
  have survives : Survives (· = leaf) := fun _ _ object => by rw [← object] at isLeaf; cases isLeaf
  have origin := origin_of_leadsTo_mergeAll survives ordered ⟨leaf, followed, rfl⟩
  simpa only [LeadsTo, exists_eq_right] using origin

end Origin

end Gatehouse.Tree
