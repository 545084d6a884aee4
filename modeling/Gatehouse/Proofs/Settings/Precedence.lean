/-
**Conflicting spellings.**

A path may be looked up in whole settings, or its end in the settings below its beginning. Where the
path is spelled more than once the first takes the way with the longest keys, and the second merges all
spellings and then takes the longest keys of what is left of them. A way with longer keys at the
beginning comes later in the merge, so that its value replaces that of the same keys below.

The two need not agree. What is left of a shorter way may have longer keys than what is left of the
longer one; and a value that stands in the way of the longer one replaces all that is left of others.

* `Tree.listed_split`: the order in which ways are merged;
* `Settings.Uncontested`: nothing below a path comes before what is left of a way, or replaces it;
* **`Settings.get?_under_of_get?`**: where the two agree.
-/

import Mathlib.Data.String.Basic
import Gatehouse.Proofs.Settings.Merging
import Gatehouse.Proofs.Settings.Priority

namespace Gatehouse

namespace Path

/-! ### Order of keys -/

theorem not_lt_of_prefix {first second : List Char} (starts : first <+: second) : ¬ second < first := by
  obtain ⟨more, rfl⟩ := starts
  induction first with
  | nil => exact List.not_lt_nil _
  | cons c rest ih =>
    intro before
    rcases List.cons_lt_cons_iff.mp before with smaller | ⟨_, later⟩
    · exact Char.lt_irrefl _ smaller
    · exact ih later

/-- Of two keys that begin with the same segments the greater one is longer. -/
theorem length_segments_lt_of_lt {first second : String} {pieces : List (List Char)}
    (before : first < second) (starts : segments first <+: pieces) (starts' : segments second <+: pieces) :
    (segments first).length < (segments second).length := by
  by_contra longer
  obtain ⟨more, split⟩ := List.prefix_of_prefix_length_le starts' starts (Nat.le_of_not_lt longer)
  by_cases empty : more = []
  · subst empty
    rw [List.append_nil, segments_inj] at split
    exact String.lt_irrefl _ (split ▸ before)
  · obtain ⟨rest, same⟩ := exists_suffix empty split.symm
    have whole : first = second ++ "." ++ rest := by
      rw [← segments_inj, segments_append, same, split]
    refine not_lt_of_prefix ?_ (String.lt_iff_toList_lt.mp before)
    rw [whole, String.toList_append, String.toList_append, List.append_assoc]
    exact List.prefix_append _ _

theorem Outranks.append {first second : List String} (outranks : Outranks first second)
    (more others : List String) : Outranks (first ++ more) (second ++ others) := by
  induction outranks with
  | key longer => exact .key longer
  | later _ ih => exact .later ih

theorem Outranks.irrefl {keys : List String} : ¬ Outranks keys keys :=
  fun outranks => outranks.asymm outranks

/-- A way that begins with a greater key outranks the other ways with its segments. -/
theorem outranks_of_lt {key other : String} {keys others : List String} (before : key < other)
    (same : segmentsOf (key :: keys) = segmentsOf (other :: others)) :
    Outranks (other :: others) (key :: keys) := by
  refine .key (length_segments_lt_of_lt before (List.prefix_append _ (segmentsOf keys)) ?_)
  rw [← segmentsOf_cons, same, segmentsOf_cons]
  exact List.prefix_append _ _

end Path

namespace Tree

open Gatehouse.Path (segments segmentsOf Proper Leaves Outranks)

/-! ### The order of what is listed -/

section Listed

variable {path here key rest : String} {value : Tree} {within : List (List Char)}

/-- What an entry lists, a way that begins with its key leads to. -/
theorem exists_leaves_of_listedEntry (proper : Proper path)
    (aim : segments path = origin here ++ within) (ordered : value.Ordered) {found : Tree}
    (held : (rest, found) ∈ listedEntry path here (key, value)) :
    ∃ keys, Leaves within (key :: keys) [rest] ∧ value.follow keys = some found := by
  rcases (mem_listedEntry_iff proper aim ordered).mp held with
    ⟨beyond, rfl⟩ | ⟨left, rfl, crosses⟩
  · exact ⟨[], .here beyond, rfl⟩
  · obtain ⟨keys, leaves, followed⟩ := Crosses.iff_leaves.mp ⟨found, crosses, follow_nil found⟩
    exact ⟨keys, .inside leaves, followed⟩

/-- What an entry lists later under the same key, a way with longer keys leads to, if this is known of
the values behind the entry. -/
theorem listedEntry_split (ordered : value.Ordered) (aim : segments path = origin here ++ within)
    {keys : List String} {found : Tree} (leaves : Leaves within (key :: keys) [rest])
    (followed : value.follow keys = some found)
    (inside : ∀ {left}, left ≠ [] → within = segments key ++ left → Leaves left keys [rest] →
      ∃ before later, listed path (Path.child here key) value = before ++ (rest, found) :: later ∧
        ∀ {other}, (rest, other) ∈ later → ∃ others, Leaves left others [rest] ∧
          value.follow others = some other ∧ Outranks others keys) :
    ∃ before later, listedEntry path here (key, value) = before ++ (rest, found) :: later ∧
      ∀ {other}, (rest, other) ∈ later → ∃ others, Leaves within (key :: others) [rest] ∧
        value.follow others = some other ∧ Outranks others keys := by
  cases leaves with
  | here beyond =>
    cases followed
    exact ⟨[], [], listedEntry_beyond aim beyond, nofun⟩
  | @inside left _ _ _ later =>
    by_cases empty : left = []
    · subst empty
      obtain rfl := later.eq_of_nil
      obtain ⟨child, member, same⟩ := follow_cons_eq_some_iff.mp followed
      obtain rfl := Option.some.inj same
      obtain ⟨before, others, split⟩ := List.append_of_mem (Entries.mem_of_find? member)
      have distinct := nodup_members ordered
      rw [split, List.map_append, List.map_cons] at distinct
      have once := (List.nodup_cons.mp (List.nodup_append.mp distinct).2.1).1
      refine ⟨before, others, ?_, fun again => ?_⟩
      · rw [listedEntry_arrived aim (List.append_nil _), split]
      · exact (once (List.mem_map_of_mem (f := (·.1)) again)).elim
    · obtain ⟨before, others, split, longer⟩ := inside empty rfl later
      refine ⟨before, others, by rw [listedEntry_toward aim empty rfl, split], fun member => ?_⟩
      obtain ⟨way, leaves, followed, outranks⟩ := longer member
      exact ⟨way, .inside leaves, followed, outranks⟩

/-- **The order of what is listed.** Whatever is listed later under the same key, a way with longer
keys leads to it. -/
theorem listed_split {tree : Tree} (ordered : tree.Ordered) (proper : Proper path)
    (aim : segments path = origin here ++ within) {keys : List String} {found : Tree}
    (leaves : Leaves within keys [rest]) (followed : tree.follow keys = some found) :
    ∃ before later, listed path here tree = before ++ (rest, found) :: later ∧
      ∀ {other}, (rest, other) ∈ later → ∃ others, Leaves within others [rest] ∧
        tree.follow others = some other ∧ Outranks others keys := by
  induction tree using Tree.induction generalizing here within keys with
  | object entries ih =>
    obtain ⟨ascending, members⟩ := (ordered_object_iff entries).mp ordered
    obtain ⟨key, keys, rfl⟩ := List.exists_cons_of_ne_nil leaves.keys_ne_nil
    obtain ⟨child, inside, onward⟩ := follow_cons_eq_some_iff.mp followed
    have member : (key, child) ∈ entries := Entries.mem_of_find? inside
    obtain ⟨before, later, held, longer⟩ := listedEntry_split (members _ member) aim leaves onward
      fun _ split leaves => ih _ member (members _ member) (aim_inside proper aim split) leaves onward
    obtain ⟨first, last, split⟩ := List.append_of_mem member
    refine ⟨first.flatMap (listedEntry path here) ++ before,
      later ++ last.flatMap (listedEntry path here), ?_, fun {other} listed => ?_⟩
    · rw [listed_object, split, List.flatMap_append, List.flatMap_cons, held]
      simp
    rcases List.mem_append.mp listed with here | there
    · obtain ⟨others, leaves, followed, outranks⟩ := longer here
      exact ⟨key :: others, leaves, follow_cons_eq_some_iff.mpr ⟨child, inside, followed⟩,
        .later outranks⟩
    · -- a later entry has a greater key, so that every way through it outranks this one
      obtain ⟨⟨name, value⟩, after, listed⟩ := List.mem_flatMap.mp there
      have afterwards : (name, value) ∈ entries := by
        rw [split]
        exact List.mem_append_right _ (List.mem_cons_of_mem _ after)
      obtain ⟨others, leaves', followed'⟩ :=
        exists_leaves_of_listedEntry proper aim (members _ afterwards) listed
      rw [split] at ascending
      have greater := (List.pairwise_cons.mp (List.pairwise_append.mp ascending).2.1).1 _ after
      refine ⟨name :: others, leaves', ?_,
        Path.outranks_of_lt greater (leaves.spelled.trans leaves'.spelled.symm)⟩
      exact follow_cons_eq_some_iff.mpr
        ⟨value, (mem_members_iff ordered).mp afterwards, followed'⟩
  | _ =>
    have empty := follow_of_no_members rfl followed
    exact (leaves.keys_ne_nil empty).elim

end Listed

end Tree

/-! ### Looking up below a path -/

namespace Settings

open Gatehouse.Path (segments segmentsOf Proper Leaves Outranks)
open Gatehouse.Tree (Crosses)

variable {settings : Settings} {path rest : String}

/-- A value that some keys below a path lead to, in one of the spellings of the path. -/
def HasBelow (settings : Settings) (path : String) (below : List String) (value : Tree) : Prop :=
  ∃ keys, Leaves (segments path) keys below ∧ settings.toTree.follow keys = some value

/-- What is left of a way behind a path is not contested there: nothing with the same segments has
longer keys below the path, and where a way with longer keys leads to less of it, there is an object. -/
structure Uncontested (settings : Settings) (path : String) (way below : List String) : Prop where
  outranks : ∀ {others value}, settings.HasBelow path others value →
    segmentsOf others = segmentsOf below → others = below ∨ Outranks below others
  passable : ∀ {keys others value}, Leaves (segments path) keys others →
    settings.toTree.follow keys = some value → Outranks keys way → others <+: below →
    others ≠ below → value.isObject = true

/-- A single key is never contested. -/
theorem Uncontested.single (settings : Settings) (path rest : String) (way : List String) :
    settings.Uncontested path way [rest] where
  outranks := fun _ same => Path.eq_or_outranks_of_whole (by simpa using same)
  passable := by
    intro keys others value leaves _ _ stays further
    rcases List.prefix_cons_iff.mp stays with empty | ⟨more, rfl, empty⟩
    · exact (leaves.ne_nil empty).elim
    · exact (further (by rw [List.prefix_nil.mp empty])).elim

theorem toTree_under (proper : Proper path) : (settings.under path).toTree =
    .object (Tree.mergeAll [] (Tree.listed path "" settings.toTree)) :=
  congrArg Tree.object (entries_under proper)

theorem ordered_of_mem_listed (proper : Proper path) :
    ∀ entry ∈ Tree.listed path "" settings.toTree, entry.2.Ordered := by
  rintro ⟨name, value⟩ member
  have crosses := (Tree.mem_listed_iff settings.ordered_toTree proper rfl).mp member
  obtain ⟨keys, key, followed, _⟩ := crosses.reached
  exact Tree.ordered_of_follow settings.ordered_toTree followed

/-- Where anything stands below a path in its merged settings, some spelling of the path leads to
something. -/
theorem exists_hasBelow_of_follow_under (proper : Proper path) {below : List String}
    (nonempty : below ≠ []) (followed : ((settings.under path).toTree.follow below).isSome = true) :
    ∃ value, settings.HasBelow path below value := by
  obtain ⟨name, after, rfl⟩ := List.exists_cons_of_ne_nil nonempty
  rw [toTree_under proper] at followed
  rcases Tree.origin_of_follow_mergeAll (ordered_of_mem_listed proper) followed with
    nothing | ⟨child, member, onward⟩
  · cases nothing
  · obtain ⟨value, onward⟩ := Option.isSome_iff_exists.mp onward
    have crosses := (Tree.mem_listed_iff settings.ordered_toTree proper rfl).mp member
    obtain ⟨keys, leaves, reached⟩ := Crosses.iff_leaves.mp ⟨child, crosses, onward⟩
    exact ⟨value, keys, leaves, reached⟩

/-- **The leaf behind the preferred way stands below the path**, if what is left of this way is not
contested. -/
theorem follow_under_of_uncontested (proper : Proper path) {way below : List String} {value : Tree}
    (preferred : settings.toTree.Preferred way value) (leaf : value.isObject = false)
    (leaves : Leaves (segments path) way below) (uncontested : settings.Uncontested path way below) :
    (settings.under path).toTree.follow below = some value := by
  obtain ⟨name, after, rfl⟩ := List.exists_cons_of_ne_nil leaves.ne_nil
  obtain ⟨first, rfl, crossing⟩ := leaves.split
  obtain ⟨child, reached, onward⟩ := Tree.follow_append_eq_some_iff.mp preferred.followed
  have aim : segments path = Tree.origin "" ++ segments path := rfl
  obtain ⟨before, later, split, longer⟩ :=
    Tree.listed_split settings.ordered_toTree proper aim crossing reached
  have ordered : ∀ entry ∈ before ++ (name, child) :: later, entry.2.Ordered :=
    split ▸ ordered_of_mem_listed proper
  rw [toTree_under proper, split]
  refine Tree.follow_mergeAll_of_leaf leaf onward (fun member keys stray stays found => ?_) ordered
  -- what is listed later stands behind longer keys; on the way it has only objects
  obtain ⟨others, leaves', followed, outranks⟩ := longer member
  have way : settings.toTree.follow (others ++ keys) = some stray :=
    Tree.follow_append_eq_some_iff.mpr ⟨_, followed, found⟩
  have further : keys ≠ after := by
    rintro rfl
    have same : segmentsOf (others ++ keys) = segmentsOf (first ++ keys) := by
      rw [(leaves'.append keys).spelled, (crossing.append keys).spelled]
    have ahead := outranks.append keys keys
    rcases preferred.outranks same (by rw [way]; rfl) with equal | behind
    · exact Path.Outranks.irrefl (equal ▸ ahead)
    · exact ahead.asymm behind
  refine ⟨uncontested.passable (leaves'.append keys) way (outranks.append keys after) ?_ ?_, further⟩
  · exact (List.prefix_cons_inj name).mpr stays
  · exact fun same => further (List.cons.inj same).2

/-- **Where a path may be cut.** A look-up of a leaf takes the preferred way through the settings. What
is left of this way behind a beginning of the path leads to the same leaf in the settings below, and a
look-up there takes it, if it is not contested; it never is for a single segment. -/
theorem get?_under_of_get? (proper : Proper path) (properRest : Proper rest) {value : Tree}
    (found : settings.get? (path ++ "." ++ rest) = some value) (leaf : value.isObject = false) :
    ∃ way below, settings.toTree.Preferred way value ∧ Leaves (segments path) way below ∧
      segmentsOf below = segments rest ∧
      (settings.Uncontested path way below → (settings.under path).get? rest = some value) ∧
      ('.' ∉ rest.toList → (settings.under path).get? rest = some value) := by
  obtain ⟨way, spelled, preferred⟩ := (Tree.lookup_eq_some_iff_preferred
    (Path.proper_append_iff.mpr ⟨proper, properRest⟩)).mp found
  rw [Path.segments_append] at spelled
  obtain ⟨below, leaves, same⟩ := Leaves.of_spelled (Path.segments_ne_nil rest) spelled
  have agrees : settings.Uncontested path way below → (settings.under path).get? rest = some value := by
    intro uncontested
    refine (Tree.lookup_eq_some_iff_preferred properRest).mpr ⟨below, same, ?_, ?_⟩
    · exact follow_under_of_uncontested proper preferred leaf leaves uncontested
    · intro others spelled reached
      have nonempty : others ≠ [] := by
        rintro rfl
        exact leaves.ne_nil (Path.segmentsOf_eq_nil_iff.mp spelled.symm)
      obtain ⟨other, has⟩ := exists_hasBelow_of_follow_under proper nonempty reached
      exact uncontested.outranks has spelled
  refine ⟨way, below, preferred, leaves, same, agrees, fun single => agrees ?_⟩
  rcases Path.eq_or_outranks_of_whole same with rfl | outranks
  · exact .single settings path rest way
  · cases outranks with
    | key longer =>
      rw [Path.segments_of_dotless single, List.length_singleton, Nat.lt_one_iff] at longer
      exact (Path.segments_ne_nil _ (List.length_eq_zero_iff.mp longer)).elim
    | later behind => cases behind

/-- A captain that is named twice, once with longer keys. -/
def crewTwice : Settings := .ofTree (.object [
  ("ship", .object [("crew", .object [("captain", .text "spock"), ("pilot", .text "sulu")])]),
  ("ship.crew", .object [("captain", .text "kirk")])])

theorem get?_under_crewTwice :
    Proper "ship.crew" ∧ Proper "captain" ∧
    crewTwice.get? ("ship.crew" ++ "." ++ "captain") = some (.text "kirk") ∧
    (Tree.text "kirk").isObject = false ∧
    (crewTwice.under "ship.crew").get? "captain" = some (.text "kirk") := by
  have crew : Proper "ship.crew" := by decide
  have captain : Proper "captain" := by decide
  have found : crewTwice.get? ("ship.crew" ++ "." ++ "captain") = some (.text "kirk") := by
    decide +kernel
  obtain ⟨_, _, _, _, _, _, single⟩ := get?_under_of_get? crew captain found rfl
  exact ⟨crew, captain, found, rfl, single (by decide)⟩

/-- A captain that is named twice, once with the longer keys at the beginning and once at the end. -/
def crewCrossed : Settings := .ofTree (.object [
  ("ship", .object [("crew.captain", .text "spock")]),
  ("ship.crew", .object [("captain", .text "kirk")])])

/-- What is left of the shorter way has the longer key, so that the other captain is found below. -/
theorem under_crewCrossed :
    crewCrossed.get? ("ship" ++ "." ++ "crew.captain") = some (.text "kirk") ∧
    (Tree.text "kirk").isObject = false ∧
    (crewCrossed.under "ship").get? "crew.captain" = some (.text "spock") := by
  refine ⟨?_, rfl, ?_⟩ <;> decide +kernel

/-- A value that leads nowhere is passed by in the whole settings, but replaces the crew below. -/
example :
    let settings := Settings.ofTree (.object [
      ("ship", .object [("crew", .object [("captain", .text "kirk")])]), ("ship.crew", .int 430)])
    settings.get? "ship.crew.captain" = some (.text "kirk") ∧
      (settings.under "ship").get? "crew.captain" = none := by
  decide +kernel

end Settings

end Gatehouse
