/-
**Named records.**

A record is an object of plain fields. In settings of records a field is found in the record of its
name, unless another record has the whole path as its name. In settings that are a roster no name has
a dot. There is one way to spell the path of a field, whatever dots a name from outside may bring, and
the groups of a roster are its records.

* `Tree.IsRecord`, `Settings.HoldsRecords`, `Settings.IsRoster`: records and settings of records;
* `Tree.IsRecord.lookup_eq`, **`Settings.HoldsRecords.get?_field`**: looking up fields;
* **`Settings.IsRoster.exists_group_iff`**, `Settings.IsRoster.get?_group`: the groups of a roster.
-/

import Gatehouse.Proofs.Settings.Groups

namespace Gatehouse

namespace Path

/-! ### Paths that end in a name -/

theorem ne_empty_of_last {path : String} (named : (segments path).getLast? ≠ some []) : path ≠ "" := by
  rintro rfl
  exact named rfl

theorem getLast?_segments_append (before after : String) :
    (segments (before ++ "." ++ after)).getLast? = (segments after).getLast? := by
  rw [segments_append, List.getLast?_append_of_ne_nil _ (segments_ne_nil after)]

/-- A name without dots is the last segment of the paths that end in it. -/
theorem getLast?_ne_of_dotless {name : String} (named : name ≠ "") (dotless : '.' ∉ name.toList)
    (before : String) : (segments (before ++ "." ++ name)).getLast? ≠ some [] := by
  rw [getLast?_segments_append, segments_of_dotless dotless, List.getLast?_singleton]
  intro empty
  exact named (String.toList_inj.mp (Option.some.inj empty))

theorem cuts_of_dotless {name : String} (dotless : '.' ∉ name.toList) : cuts name = [] := by
  rw [List.eq_nil_iff_forall_not_mem]
  rintro ⟨before, after⟩ cut
  rw [mem_cuts_iff] at cut
  subst cut
  exact dotless (by simp)

/-- Two cuts of a path into a key and a name without dots are the same. -/
theorem cut_unique {first second before after : String} (dotless : '.' ∉ first.toList)
    (dotless' : '.' ∉ second.toList) (same : before ++ "." ++ first = after ++ "." ++ second) :
    before = after ∧ first = second := by
  rw [← segments_inj, segments_append, segments_append, segments_of_dotless dotless,
    segments_of_dotless dotless'] at same
  obtain ⟨left, right⟩ := List.append_inj' same rfl
  exact ⟨segments_inj.mp left, String.toList_inj.mp (List.singleton_inj.mp right)⟩

end Path

/-- A search that can only succeed at one place has what is found there. -/
theorem findSome?_eq_of_unique {α β : Type} {list : List α} {f : α → Option β} {a : α}
    (member : a ∈ list) (others : ∀ b ∈ list, b ≠ a → f b = none) : list.findSome? f = f a := by
  cases here : f a with
  | none =>
    refine List.findSome?_eq_none_iff.mpr fun b inside => ?_
    by_cases same : b = a
    · rw [same, here]
    · exact others b inside same
  | some value =>
    have present : (list.findSome? f).isSome = true :=
      List.findSome?_isSome_iff.mpr ⟨a, member, by rw [here]; rfl⟩
    obtain ⟨found, same⟩ := Option.isSome_iff_exists.mp present
    obtain ⟨b, inside, reached⟩ := List.exists_of_findSome?_eq_some same
    have only : b = a := by
      by_contra different
      rw [others b inside different] at reached
      cases reached
    rw [same, ← reached, only, here]

namespace Tree

open Gatehouse.Path (segments)

/-! ### Records -/

/-- An object of plain fields: their names have no dots, and none of them is an object. -/
structure IsRecord (tree : Tree) : Prop where
  object : tree.isObject = true
  dotless : ∀ field ∈ tree.members, '.' ∉ field.1.toList
  leaf : ∀ field ∈ tree.members, field.2.isObject = false

instance (tree : Tree) : Decidable tree.IsRecord :=
  decidable_of_iff (tree.isObject = true ∧ (∀ field ∈ tree.members, '.' ∉ field.1.toList) ∧
      ∀ field ∈ tree.members, field.2.isObject = false)
    ⟨fun parts => ⟨parts.1, parts.2.1, parts.2.2⟩,
      fun isRecord => ⟨isRecord.object, isRecord.dotless, isRecord.leaf⟩⟩

/-- A path leads no further into a record than to its fields. -/
theorem IsRecord.lookup_eq {record : Tree} (isRecord : record.IsRecord) {path : String}
    (named : (segments path).getLast? ≠ some []) :
    record.lookup path = Entries.find? path record.members := by
  rw [Tree.lookup_eq record (Path.ne_empty_of_last named)]
  have nothing : (Path.cuts path).findSome? (fun cut =>
      (Entries.find? cut.1 record.members).bind fun value => value.lookup cut.2) = none := by
    refine List.findSome?_eq_none_iff.mpr ?_
    rintro ⟨name, rest⟩ cut
    obtain rfl := Path.mem_cuts_iff.mp cut
    rw [Path.getLast?_segments_append] at named
    refine Option.bind_eq_none_iff.mpr fun value found => ?_
    have leaf := isRecord.leaf _ (Entries.mem_of_find? found)
    exact lookup_of_no_members (members_of_not_object leaf) (Path.ne_empty_of_last named)
  rw [nothing, Option.or_none]

/-- A name without dots is looked up among the members. -/
theorem lookup_of_dotless {tree : Tree} {name : String} (named : name ≠ "")
    (dotless : '.' ∉ name.toList) : tree.lookup name = Entries.find? name tree.members := by
  rw [Tree.lookup_eq tree named, Path.cuts_of_dotless dotless, List.findSome?_nil, Option.or_none]

/-- Below a name without dots, entries without dots hold what is under this name. -/
theorem gatherEntries_of_dotless {name : String} (dotless : '.' ∉ name.toList) {entries : Entries Tree}
    (keys : ∀ entry ∈ entries, '.' ∉ entry.1.toList) (distinct : (entries.map (·.1)).Nodup)
    (found : Entries Tree) : gatherEntries name "" entries found =
      (entries.find? name).elim found fun value => mergeAll found value.members := by
  induction entries generalizing found with
  | nil => rw [gatherEntries]; rfl
  | cons entry rest ih =>
    obtain ⟨key, value⟩ := entry
    obtain ⟨fresh, distinct⟩ := List.nodup_cons.mp distinct
    obtain ⟨dotlessKey, keys⟩ := List.forall_mem_cons.mp keys
    rw [gatherEntries_cons, gatherEntries_singleton dotless, ih keys distinct, Entries.find?]
    by_cases same : name = key
    · subst same
      rw [if_pos rfl, if_pos rfl, find?_eq_none_of_not_mem fresh]
      rfl
    · rw [if_neg (Ne.symm same), if_neg same, below?_of_dotless dotlessKey]

end Tree

namespace Settings

/-! ### Records under any names -/

/-- Settings whose entries are records; their names may be anything. -/
def HoldsRecords (settings : Settings) : Prop := ∀ entry ∈ settings.entries, entry.2.IsRecord

instance (settings : Settings) : Decidable settings.HoldsRecords := by
  unfold HoldsRecords; infer_instance

/-- **A field is looked up in the record of its name**, unless there is a record whose own name is the
whole path. -/
theorem HoldsRecords.get?_field {settings : Settings} (records : settings.HoldsRecords)
    (name : String) {field : String} (named : field ≠ "") (dotless : '.' ∉ field.toList) :
    settings.get? (name ++ "." ++ field) = (settings.entries.find? (name ++ "." ++ field)).or
      ((settings.entries.find? name).bind fun record => Entries.find? field record.members) := by
  have last := Path.getLast?_ne_of_dotless named dotless name
  -- behind the name of a record there is this record, which is asked for the rest of the path
  have step : ∀ cut ∈ Path.cuts (name ++ "." ++ field),
      ((settings.entries.find? cut.1).bind fun value => value.lookup cut.2) =
        (settings.entries.find? cut.1).bind fun record => Entries.find? cut.2 record.members := by
    rintro ⟨key, rest⟩ cut
    rw [Path.mem_cuts_iff] at cut
    rw [cut, Path.getLast?_segments_append] at last
    cases found : settings.entries.find? key with
    | none => rfl
    | some record => exact (records _ (Entries.mem_of_find? found)).lookup_eq last
  have unique : ∀ cut ∈ Path.cuts (name ++ "." ++ field), cut ≠ (name, field) →
      ((settings.entries.find? cut.1).bind fun value => value.lookup cut.2) = none := by
    rintro ⟨key, rest⟩ cut different
    rw [step _ cut, Option.bind_eq_none_iff]
    intro record found
    rw [Option.eq_none_iff_forall_ne_some]
    intro value inside
    have dotlessRest :=
      (records _ (Entries.mem_of_find? found)).dotless _ (Entries.mem_of_find? inside)
    obtain ⟨rfl, rfl⟩ := Path.cut_unique dotless dotlessRest (Path.mem_cuts_iff.mp cut)
    exact different rfl
  have cut : (name, field) ∈ Path.cuts (name ++ "." ++ field) := Path.mem_cuts_iff.mpr rfl
  unfold get?
  rw [Tree.lookup_eq _ (Path.ne_empty_of_last last)]
  exact congrArg _ ((findSome?_eq_of_unique cut unique).trans (step _ cut))

/-! ### Rosters -/

/-- Settings of named records. -/
def IsRoster (settings : Settings) : Prop :=
  ∀ entry ∈ settings.entries, entry.1 ≠ "" ∧ '.' ∉ entry.1.toList ∧ entry.2.IsRecord

instance (settings : Settings) : Decidable settings.IsRoster := by unfold IsRoster; infer_instance

namespace IsRoster

variable {settings : Settings} (roster : settings.IsRoster)

include roster

theorem holdsRecords : settings.HoldsRecords := fun entry member => (roster entry member).2.2

/-- **A field is looked up in the record of its name**, also if the name has dots or is empty: then
there is none. -/
theorem get?_field (name : String) {field : String} (named : field ≠ "")
    (dotless : '.' ∉ field.toList) : settings.get? (name ++ "." ++ field) =
      (settings.entries.find? name).bind fun record => Entries.find? field record.members := by
  have whole : settings.entries.find? (name ++ "." ++ field) = none := by
    rw [Option.eq_none_iff_forall_ne_some]
    intro record found
    exact (roster _ (Entries.mem_of_find? found)).2.1 (by simp)
  rw [roster.holdsRecords.get?_field name named dotless, whole, Option.none_or]

theorem undivided : settings.Undivided := fun entry member =>
  Tree.isJoined_eq_false_iff.mpr fun _ => (roster entry member).2.1

/-- The groups of a roster have the names of its records. -/
theorem contains_groups_iff {name : String} : (settings.groups "").contains name = true ↔
    ∃ record, settings.entries.find? name = some record := by
  rw [Settings.contains_groups_iff]
  constructor
  · rintro ⟨⟨key, record⟩, member, names⟩
    have object := (roster _ member).2.2.object
    obtain rfl := (Tree.names_iff_of_object object).mp names
    exact ⟨record, (Tree.mem_members_iff settings.ordered_toTree).mp member⟩
  · rintro ⟨record, found⟩
    have member := Entries.mem_of_find? found
    exact ⟨(name, record), member, .whole (roster _ member).2.2.object⟩

/-- What lies below the name of a record are its fields. -/
theorem find?_under {name field : String} {record : Tree}
    (found : settings.entries.find? name = some record) :
    (settings.under name).entries.find? field = Entries.find? field record.members := by
  obtain ⟨named, dotless, isRecord⟩ := roster _ (Entries.mem_of_find? found)
  have ordered := Tree.ordered_of_find? settings.ordered found
  have entries : (settings.under name).entries = Tree.mergeAll [] record.members := by
    rw [under, if_neg named]
    show Tree.gatherEntries name "" settings.entries [] = _
    rw [Tree.gatherEntries_of_dotless dotless (fun entry member => (roster entry member).2.1)
      (Tree.nodup_members settings.ordered_toTree), found]
    rfl
  rw [entries, Tree.find?_mergeAll (Tree.nodup_members ordered) fun _ _ => rfl, Entries.find?_nil,
    Option.or_none]

/-- **The groups of a roster are its records.** -/
theorem get?_group {name field : String} {group : Settings} {record : Tree}
    (grouped : (settings.groups "").find? name = some group)
    (found : settings.entries.find? name = some record) (named : field ≠ "")
    (dotless : '.' ∉ field.toList) : group.get? field = Entries.find? field record.members := by
  obtain ⟨namedKey, dotlessKey, _⟩ := roster _ (Entries.mem_of_find? found)
  rw [group_eq_under dotlessKey namedKey grouped]
  show (Settings.unjoined settings |>.under name).get? field = _
  rw [unjoined_eq roster.undivided]
  unfold get?
  rw [Tree.lookup_of_dotless named dotless]
  exact roster.find?_under found

end IsRoster

end Settings

end Gatehouse
