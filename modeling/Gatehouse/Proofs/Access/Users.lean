/-
**Finding a user.**

A user answers to the key of an entry or, if no hash stands there, to the alias of another one. Of
several entries with one alias the backend takes that of the smallest key, before it has seen whether
there is a hash. So an entry without a hash hides those with the same alias behind it; where none does,
the user has the entry with a hash of the smallest key.

* `Internal.HasEntry`, `Internal.HasAlias`: what a document of users says, field by field;
* `Internal.IsEntryOf`: the entry of a user, among those with a hash;
* **`Internal.findUser_eq_some_iff`**: which entry is found;
* **`Internal.findUser_eq_some_iff_unless_hidden`**: it is the entry of the user, unless this one is hidden.
-/

import Gatehouse.Access.Internal
import Gatehouse.Proofs.Settings.Records

namespace Gatehouse

theorem eq_of_not_lt {first second : String} (left : ¬ first < second) (right : ¬ second < first) :
    first = second :=
  String.le_antisymm (String.not_lt.mp right) (String.not_lt.mp left)

/-- The first value of a table with some property is that of the smallest name. -/
theorem Table.find?_entries_eq_some_iff {α : Type} {table : Table α} (holds : α → Bool) {name : String}
    {value : α} : List.find? (fun entry => holds entry.2) table.entries = some (name, value) ↔
      table.find? name = some value ∧ holds value = true ∧
        ∀ {other found}, table.find? other = some found → holds found = true → ¬ other < name := by
  rw [List.find?_eq_some_iff_append]
  constructor
  · rintro ⟨here, before, after, split, fails⟩
    have ascending := table.ascending
    have member : (name, value) ∈ table.entries := by rw [split]; simp
    refine ⟨Entries.find?_of_mem ascending member, here, fun {other found} at_ holds precedes => ?_⟩
    have inside : (other, found) ∈ table.entries := Entries.mem_of_find? at_
    rw [split] at inside ascending
    rcases List.mem_append.mp inside with earlier | later
    · have fails := fails _ earlier
      rw [holds] at fails
      cases fails
    · rcases List.mem_cons.mp later with same | later
      · cases same
        exact String.lt_irrefl _ precedes
      · have follows := (List.pairwise_cons.mp (List.pairwise_append.mp ascending).2.1).1 _ later
        exact String.lt_irrefl _ (String.lt_trans precedes follows)
  · rintro ⟨found, here, first⟩
    obtain ⟨before, after, split⟩ := List.append_of_mem (Entries.mem_of_find? found)
    refine ⟨here, before, after, split, fun entry earlier => ?_⟩
    have ascending := table.ascending
    have member : entry ∈ table.entries := by rw [split]; exact List.mem_append_left _ earlier
    have at_ : table.find? entry.1 = some entry.2 := Entries.find?_of_mem ascending member
    rw [split] at ascending
    have precedes := (List.pairwise_append.mp ascending).2.2 _ earlier _ List.mem_cons_self
    rw [Bool.not_eq_true']
    by_contra holds
    rw [Bool.not_eq_false] at holds
    exact first at_ holds precedes

namespace Internal

/-! ### What a document says -/

/-- The text of a field. -/
def fieldText? (record : Tree) (field : String) : Option String :=
  (Entries.find? field record.members).bind Tree.scalarText?

/-- The roles of a record. -/
def rolesOf (record : Tree) : List String :=
  match Entries.find? "roles" record.members with
  | some (.list items) => items.filterMap Tree.scalarText?
  | some (.text names) => Text.commaList names
  | _ => []

/-- Under a key stands an entry with a hash. -/
def HasEntry (users : Settings) (key : String) (entry : UserEntry) : Prop :=
  ∃ record, users.entries.find? key = some record ∧
    fieldText? record "hash" = some entry.hash ∧ rolesOf record = entry.roles

/-- Under a key stands an entry with a user name as its alias. -/
def HasAlias (users : Settings) (key username : String) : Prop :=
  ∃ record, users.entries.find? key = some record ∧ fieldText? record "username" = some username

/-- The smallest key with a user name as alias. -/
def FirstAlias (users : Settings) (username key : String) : Prop :=
  HasAlias users key username ∧ ∀ {other}, HasAlias users other username → ¬ other < key

/-- The entry of a user: that of the key, or that of the smallest key among those that have a hash and
the user name as alias. -/
def IsEntryOf (users : Settings) (username : String) (entry : UserEntry) : Prop :=
  HasEntry users username entry ∨
  (∀ other, ¬ HasEntry users username other) ∧ ∃ key, HasAlias users key username ∧
    HasEntry users key entry ∧
    ∀ {other another}, HasAlias users other username → HasEntry users other another → ¬ other < key

/-- An entry without a hash stands before another one with the same alias. -/
def IsHidden (users : Settings) (username : String) : Prop :=
  (∀ other, ¬ HasEntry users username other) ∧
  (∃ key, FirstAlias users username key ∧ ∀ entry, ¬ HasEntry users key entry) ∧
  ∃ key entry, HasAlias users key username ∧ HasEntry users key entry

/-! ### What is found -/

/-- A group with a user name as its alias. -/
def answersTo (username : String) (group : Settings) : Bool := group.text? "username" = some username

section Roster

variable {users : Settings} (roster : users.IsRoster) {username key : String} {entry : UserEntry}

include roster

theorem text?_field (key : String) {field : String} (named : field ≠ "")
    (dotless : '.' ∉ field.toList) : users.text? (key ++ "." ++ field) =
      (users.entries.find? key).bind fun record => fieldText? record field := by
  unfold Settings.text? fieldText?
  rw [roster.get?_field key named dotless, Option.bind_assoc]

/-- A look-up under a key gives what the entry there says. -/
theorem entryAt_eq_some_iff : entryAt users key = some entry ↔ HasEntry users key entry := by
  have hash := text?_field roster key (show "hash" ≠ "" by decide) (by decide)
  have roles := roster.get?_field key (show "roles" ≠ "" by decide) (by decide)
  rw [String.append_assoc] at hash roles
  unfold entryAt HasEntry
  rw [show ".hash" = "." ++ "hash" by decide, hash, Option.map_eq_some_iff]
  unfold Settings.texts
  rw [show ".roles" = "." ++ "roles" by decide, roles]
  cases users.entries.find? key with
  | none => simp
  | some record =>
    simp only [Option.bind_some, Option.some.injEq, exists_eq_left']
    constructor
    · rintro ⟨hash, text, rfl⟩
      exact ⟨text, rfl⟩
    · rintro ⟨text, same⟩
      obtain ⟨stored, _⟩ := entry
      cases same
      exact ⟨stored, text, rfl⟩

/-- The groups with an alias are the entries with it. -/
theorem hasAlias_iff : HasAlias users key username ↔ ∃ group,
    (users.groups "").find? key = some group ∧ group.text? "username" = some username := by
  have same_text {record : Tree} {group : Settings} (found : users.entries.find? key = some record)
      (grouped : (users.groups "").find? key = some group) :
      group.text? "username" = fieldText? record "username" := by
    unfold Settings.text? fieldText?
    rw [roster.get?_group grouped found (by decide) (by decide)]
  constructor
  · rintro ⟨record, found, text⟩
    have contained := roster.contains_groups_iff.mpr ⟨record, found⟩
    obtain ⟨group, grouped⟩ := Option.isSome_iff_exists.mp contained
    exact ⟨group, grouped, (same_text found grouped).trans text⟩
  · rintro ⟨group, grouped, text⟩
    obtain ⟨record, found⟩ := roster.contains_groups_iff.mp (Settings.contains_of_find? grouped)
    exact ⟨record, found, (same_text found grouped).symm.trans text⟩

/-- The alias is looked for from the smallest key on. -/
theorem aliasKey?_eq_some_iff : aliasKey? users username = some key ↔
    FirstAlias users username key := by
  have search : aliasKey? users username =
      (List.find? (fun entry => answersTo username entry.2) (users.groups "").entries).map (·.1) := rfl
  rw [search, FirstAlias, Option.map_eq_some_iff, hasAlias_iff roster]
  constructor
  · rintro ⟨⟨_, group⟩, searched, rfl⟩
    obtain ⟨grouped, text, first⟩ := (Table.find?_entries_eq_some_iff _).mp searched
    refine ⟨⟨group, grouped, of_decide_eq_true text⟩, fun {other} named => ?_⟩
    obtain ⟨another, grouped, text⟩ := (hasAlias_iff roster).mp named
    exact first grouped (decide_eq_true text)
  · rintro ⟨⟨group, grouped, text⟩, first⟩
    refine ⟨(key, group), (Table.find?_entries_eq_some_iff _).mpr
      ⟨grouped, decide_eq_true text, fun {other another} grouped text => ?_⟩, rfl⟩
    exact first ((hasAlias_iff roster).mpr ⟨another, grouped, of_decide_eq_true text⟩)

theorem exists_firstAlias (named : HasAlias users key username) :
    ∃ first, FirstAlias users username first := by
  obtain ⟨group, grouped, text⟩ := (hasAlias_iff roster).mp named
  have present : (List.find? (fun entry => answersTo username entry.2)
      (users.groups "").entries).isSome = true :=
    List.find?_isSome.mpr ⟨(key, group), Entries.mem_of_find? grouped, decide_eq_true text⟩
  obtain ⟨⟨first, found⟩, searched⟩ := Option.isSome_iff_exists.mp present
  have search : aliasKey? users username = some first :=
    congrArg (Option.map Prod.fst) searched
  exact ⟨first, (aliasKey?_eq_some_iff roster).mp search⟩

/-- **The entry that is found**: that of the key, or that of the smallest key with the alias, if there
is a hash. -/
theorem findUser_eq_some_iff : findUser users username = some entry ↔
    HasEntry users username entry ∨ (∀ other, ¬ HasEntry users username other) ∧
      ∃ key, FirstAlias users username key ∧ HasEntry users key entry := by
  unfold findUser
  have none_iff : entryAt users username = none ↔ ∀ other, ¬ HasEntry users username other := by
    simp only [Option.eq_none_iff_forall_ne_some, ne_eq, entryAt_eq_some_iff roster]
  cases found : entryAt users username with
  | some other =>
    have here := (entryAt_eq_some_iff roster).mp found
    have not_none : ¬ ∀ other, ¬ HasEntry users username other := fun lacking => lacking other here
    rw [← entryAt_eq_some_iff roster, found, or_iff_left fun absent => not_none absent.1]
  | none =>
    have absent := none_iff.mp found
    rw [or_iff_right (absent entry), and_iff_right absent, Option.bind_eq_some_iff]
    simp only [aliasKey?_eq_some_iff roster, entryAt_eq_some_iff roster]

/-- Unless it is hidden, an entry with the alias and a hash is not behind one without. -/
theorem exists_first_of_not_hidden (shown : ¬ IsHidden users username)
    (absent : ∀ other, ¬ HasEntry users username other) (named : HasAlias users key username)
    (stands : HasEntry users key entry) :
    ∃ first other, FirstAlias users username first ∧ HasEntry users first other := by
  obtain ⟨first, isFirst⟩ := exists_firstAlias roster named
  by_contra lacking
  refine shown ⟨absent, ⟨first, isFirst, fun other here => ?_⟩, key, entry, named, stands⟩
  exact lacking ⟨first, other, isFirst, here⟩

/-- **A user is found with the own entry, unless it is hidden.** For a document of users whose keys and
fields are plain, and any user name:

* an entry is found exactly if there is one with a hash under the user name or with it as alias, and it
  is that of the user name, or else that of the smallest key among those with a hash and the alias;
* but if an entry without a hash has the alias and comes before these, no entry is found. -/
theorem findUser_eq_some_iff_unless_hidden (username : String) :
    (¬ IsHidden users username →
      (∀ entry, findUser users username = some entry ↔ IsEntryOf users username entry) ∧
      ((findUser users username).isSome = true ↔ ∃ key entry, HasEntry users key entry ∧
        (key = username ∨ HasAlias users key username))) ∧
    (IsHidden users username → findUser users username = none) := by
  refine ⟨fun shown => ⟨fun entry => ?_, ?_⟩, ?_⟩
  · rw [findUser_eq_some_iff roster]
    refine or_congr_right (and_congr_right fun absent => ⟨?_, ?_⟩)
    · rintro ⟨key, ⟨named, first⟩, stands⟩
      exact ⟨key, named, stands, fun other _ => first other⟩
    · rintro ⟨key, named, stands, smallest⟩
      obtain ⟨first, other, isFirst, here⟩ :=
        exists_first_of_not_hidden roster shown absent named stands
      obtain rfl := eq_of_not_lt (smallest isFirst.1 here) (isFirst.2 named)
      exact ⟨first, isFirst, stands⟩
  · rw [Option.isSome_iff_exists]
    constructor
    · rintro ⟨entry, found⟩
      rcases (findUser_eq_some_iff roster).mp found with stands | ⟨_, key, first, stands⟩
      · exact ⟨username, entry, stands, .inl rfl⟩
      · exact ⟨key, entry, stands, .inr first.1⟩
    · rintro ⟨key, entry, stands, own⟩
      by_cases absent : ∀ other, ¬ HasEntry users username other
      · rcases own with rfl | named
        · exact (absent entry stands).elim
        obtain ⟨first, other, isFirst, here⟩ :=
          exists_first_of_not_hidden roster shown absent named stands
        exact ⟨other, (findUser_eq_some_iff roster).mpr (.inr ⟨absent, first, isFirst, here⟩)⟩
      · obtain ⟨other, here⟩ := not_forall_not.mp absent
        exact ⟨other, (findUser_eq_some_iff roster).mpr (.inl here)⟩
  · rintro ⟨absent, ⟨first, isFirst, lacking⟩, _⟩
    rw [Option.eq_none_iff_forall_ne_some]
    intro entry found
    rcases (findUser_eq_some_iff roster).mp found with stands | ⟨_, key, isFirst', stands⟩
    · exact absent entry stands
    · obtain rfl := eq_of_not_lt (isFirst'.2 isFirst.1) (isFirst.2 isFirst'.1)
      exact lacking entry stands

end Roster

/-- Users with a key, an alias, and no hash. -/
def enterprise : Settings := .ofTree (.object [
  ("kirk", .object [("hash", .text "h1"), ("roles", .list [.text "captain"])]),
  ("nohash", .object [("roles", .list [.text "x"])]),
  ("renamed", .object [("hash", .text "h2"), ("roles", .text "admiral, envoy"),
    ("username", .text "picard")])])

theorem findUser_enterprise :
    enterprise.IsRoster ∧ ¬ IsHidden enterprise "picard" ∧
    findUser enterprise "picard" = some ⟨"h2", ["admiral", "envoy"]⟩ ∧
    IsEntryOf enterprise "picard" ⟨"h2", ["admiral", "envoy"]⟩ := by
  have roster : enterprise.IsRoster := by decide +kernel
  have found : findUser enterprise "picard" = some ⟨"h2", ["admiral", "envoy"]⟩ := by decide +kernel
  obtain ⟨shown, hidden⟩ := findUser_eq_some_iff_unless_hidden roster "picard"
  have seen : ¬ IsHidden enterprise "picard" := by
    intro isHidden
    rw [hidden isHidden] at found
    cases found
  exact ⟨roster, seen, found, ((shown seen).1 _).mp found⟩

/-- Two entries with one alias, and a hash in the second one only. -/
def twoPicards : Settings := .ofTree (.object [("a", .object [("username", .text "picard")]),
  ("b", .object [("hash", .text "x"), ("username", .text "picard")])])

/-- The first entry hides the second one. -/
theorem findUser_twoPicards :
    twoPicards.IsRoster ∧ HasEntry twoPicards "b" ⟨"x", []⟩ ∧ HasAlias twoPicards "b" "picard" ∧
    findUser twoPicards "picard" = none := by
  have found : twoPicards.entries.find? "b" =
      some (.object [("hash", .text "x"), ("username", .text "picard")]) := by decide +kernel
  exact ⟨by decide +kernel, ⟨_, found, rfl, rfl⟩, ⟨_, found, rfl⟩, by decide +kernel⟩

end Internal

end Gatehouse
