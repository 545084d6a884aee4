/-
**Segments of paths.**

A dotted path is a list of segments. Keys with dots join several segments, so that the way through
a tree has a list of keys and, behind it, a list of segments; only the latter is what a path names.

* `segments_append`, `segments_inj`: joining by a dot is joining segments, and loses nothing;
* `exists_segments_eq`: any list of dotless segments is that of a path;
* `Leaves`: the keys that a way has left behind some segments.
-/

import Gatehouse.Settings.Path

namespace Gatehouse

namespace Path

/-! ### Segments -/

/-- The segments of a path, between its dots. -/
def segments (path : String) : List (List Char) := Text.splitAll '.' path.toList

/-- The segments of a way, key after key. -/
def segmentsOf (keys : List String) : List (List Char) := keys.flatMap segments

/-- No segment is empty. -/
def Proper (path : String) : Prop := [] ∉ segments path

instance (path : String) : Decidable (Proper path) := by unfold Proper; infer_instance

theorem segments_ne_nil (path : String) : segments path ≠ [] := Text.splitAll_ne_nil _ _

/-- What ends with the segments of a path goes on beyond any part before them. -/
theorem append_segments_ne (pieces more : List (List Char)) (path : String) :
    pieces ++ more ++ segments path ≠ pieces := by
  intro same
  rw [List.append_assoc] at same
  have empty := List.append_right_eq_self.mp same
  exact segments_ne_nil path (List.append_eq_nil_iff.mp empty).2

theorem segments_inj {first second : String} : segments first = segments second ↔ first = second := by
  refine ⟨fun same => ?_, fun same => same ▸ rfl⟩
  unfold segments at same
  have joined := congrArg (fun pieces => ['.'].intercalate pieces) same
  simp only [Text.join_splitAll] at joined
  exact String.toList_inj.mp joined

theorem segments_append (before after : String) :
    segments (before ++ "." ++ after) = segments before ++ segments after := by
  unfold segments
  rw [← Text.splitAll_append]
  simp

theorem segments_of_dotless {key : String} (dotless : '.' ∉ key.toList) :
    segments key = [key.toList] := Text.splitAll_eq_singleton dotless

theorem dotless_of_mem_segments {path : String} {segment : List Char}
    (member : segment ∈ segments path) : '.' ∉ segment := Text.not_mem_of_mem_splitAll member

/-- A path of a single segment is that segment. -/
theorem dotless_of_segments_eq {key : String} {segment : List Char}
    (single : segments key = [segment]) : '.' ∉ key.toList := by
  have dotless : '.' ∉ segment := dotless_of_mem_segments (single ▸ List.mem_singleton_self segment)
  have same : segments key = segments (String.ofList segment) := by
    rw [single, segments_of_dotless (by rwa [String.toList_ofList]), String.toList_ofList]
  rw [segments_inj.mp same, String.toList_ofList]
  exact dotless

theorem ne_empty_of_proper {path : String} (proper : Proper path) : path ≠ "" := by
  rintro rfl
  exact proper (by decide)

theorem proper_append_iff {before after : String} :
    Proper (before ++ "." ++ after) ↔ Proper before ∧ Proper after := by
  unfold Proper
  rw [segments_append, List.mem_append, not_or]

/-- Any dotless segments are those of a path. -/
theorem exists_segments_eq {pieces : List (List Char)} (nonempty : pieces ≠ [])
    (dotless : ∀ piece ∈ pieces, '.' ∉ piece) : ∃ path, segments path = pieces := by
  induction pieces with
  | nil => exact (nonempty rfl).elim
  | cons piece rest ih =>
    have first : segments (String.ofList piece) = [piece] := by
      rw [segments_of_dotless (by rw [String.toList_ofList]; exact dotless _ List.mem_cons_self),
        String.toList_ofList]
    by_cases last : rest = []
    · exact ⟨String.ofList piece, by rw [first, last]⟩
    · obtain ⟨path, later⟩ := ih last fun piece member =>
        dotless piece (List.mem_cons_of_mem _ member)
      exact ⟨String.ofList piece ++ "." ++ path, by rw [segments_append, first, later]; rfl⟩

/-- The last segments of a path are those of a path. -/
theorem exists_suffix {path : String} {before pieces : List (List Char)} (nonempty : pieces ≠ [])
    (split : segments path = before ++ pieces) : ∃ rest, segments rest = pieces := by
  refine exists_segments_eq nonempty fun piece member => ?_
  have inside : piece ∈ segments path := by rw [split]; exact List.mem_append_right _ member
  exact dotless_of_mem_segments inside

theorem below?_eq_some_iff_segments {ancestor path rest : String} :
    below? ancestor path = some rest ↔ segments path = segments ancestor ++ segments rest := by
  rw [below?_eq_some_iff, ← segments_append, segments_inj]

theorem below?_isSome_iff {ancestor path : String} :
    (below? ancestor path).isSome = true ↔
      ∃ pieces, pieces ≠ [] ∧ segments path = segments ancestor ++ pieces := by
  rw [Option.isSome_iff_exists]
  constructor
  · rintro ⟨rest, below⟩
    exact ⟨segments rest, segments_ne_nil rest, below?_eq_some_iff_segments.mp below⟩
  · rintro ⟨pieces, nonempty, split⟩
    obtain ⟨rest, same⟩ := exists_suffix nonempty split
    exact ⟨rest, below?_eq_some_iff_segments.mpr (by rw [same, split])⟩

theorem mem_cuts_iff {path before after : String} :
    (before, after) ∈ cuts path ↔ path = before ++ "." ++ after := by
  unfold cuts
  simp only [List.mem_map, List.mem_reverse, Prod.mk.injEq, Prod.exists]
  constructor
  · rintro ⟨left, right, cut, rfl, rfl⟩
    apply String.toList_inj.mp
    rw [mem_cutsFromLeft_iff.mp cut]
    simp
  · rintro rfl
    refine ⟨before.toList, after.toList, mem_cutsFromLeft_iff.mpr ?_, String.ofList_toList,
      String.ofList_toList⟩
    simp

/-! ### Ways -/

@[simp] theorem segmentsOf_nil : segmentsOf [] = [] := rfl

@[simp] theorem segmentsOf_cons (key : String) (keys : List String) :
    segmentsOf (key :: keys) = segments key ++ segmentsOf keys := rfl

@[simp] theorem segmentsOf_append (first second : List String) :
    segmentsOf (first ++ second) = segmentsOf first ++ segmentsOf second :=
  List.flatMap_append

theorem segmentsOf_eq_nil_iff {keys : List String} : segmentsOf keys = [] ↔ keys = [] := by
  cases keys with
  | nil => simp
  | cons key rest => simp [segments_ne_nil]

/-- Every way spells a path. -/
theorem exists_segments_eq_segmentsOf {keys : List String} (nonempty : keys ≠ []) :
    ∃ path, segments path = segmentsOf keys := by
  refine exists_segments_eq (fun empty => nonempty (segmentsOf_eq_nil_iff.mp empty))
    fun piece member => ?_
  obtain ⟨key, _, inside⟩ := List.mem_flatMap.mp member
  exact dotless_of_mem_segments inside

/-- The way of a joined key is longer than that of its first part. -/
theorem joined_ne (key name : String) : key ++ "." ++ name ≠ key := by
  intro same
  have longer := congrArg segments same
  rw [segments_append, ← List.append_nil (segments key)] at longer
  exact append_segments_ne (segments key) [] name (by rw [longer, List.append_nil])

/-! ### Leaving some segments -/

/-- A way leaves some segments behind: the first key that leads beyond them is cut down to what remains
of it, and the keys after it stay as they are. -/
inductive Leaves : List (List Char) → List String → List String → Prop
  | here {within : List (List Char)} {key rest : String} {after : List String}
      (beyond : segments key = within ++ segments rest) : Leaves within (key :: after) (rest :: after)
  | inside {left : List (List Char)} {key : String} {keys below : List String}
      (later : Leaves left keys below) : Leaves (segments key ++ left) (key :: keys) below

namespace Leaves

variable {within pieces : List (List Char)} {keys below : List String}

/-- What is left spells the segments that follow. -/
theorem spelled (leaves : Leaves within keys below) : segmentsOf keys = within ++ segmentsOf below := by
  induction leaves with
  | here beyond => rw [segmentsOf_cons, segmentsOf_cons, beyond, List.append_assoc]
  | inside _ ih => rw [segmentsOf_cons, ih, List.append_assoc]

/-- Every way beyond some segments leaves them. -/
theorem of_spelled (nonempty : pieces ≠ []) (same : segmentsOf keys = within ++ pieces) :
    ∃ below, Leaves within keys below ∧ segmentsOf below = pieces := by
  induction keys generalizing within with
  | nil => exact (nonempty (List.append_eq_nil_iff.mp same.symm).2).elim
  | cons key keys ih =>
    rw [segmentsOf_cons] at same
    -- the key stays within the segments, or it is the one that leads beyond them
    have further : ∀ left, within = segments key ++ left → segmentsOf keys = left ++ pieces →
        ∃ below, Leaves within (key :: keys) below ∧ segmentsOf below = pieces := by
      rintro left rfl remaining
      obtain ⟨below, leaves, split⟩ := ih remaining
      exact ⟨below, .inside leaves, split⟩
    rcases List.append_eq_append_iff.mp same with
      ⟨left, split, remaining⟩ | ⟨first, split, remaining⟩
    · exact further left split remaining
    · by_cases empty : first = []
      · subst empty
        exact further [] (by rw [split, List.append_nil, List.append_nil]) remaining.symm
      · obtain ⟨rest, same⟩ := exists_suffix empty split
        exact ⟨rest :: keys, .here (by rw [same, split]), by rw [segmentsOf_cons, same, remaining]⟩

theorem ne_nil (leaves : Leaves within keys below) : below ≠ [] := by
  induction leaves with
  | here _ => exact List.cons_ne_nil _ _
  | inside _ ih => exact ih

theorem keys_ne_nil (leaves : Leaves within keys below) : keys ≠ [] := by
  cases leaves <;> exact List.cons_ne_nil _ _

/-- A way that has left no segments is as it was. -/
theorem eq_of_nil (leaves : Leaves [] keys below) : keys = below := by
  generalize empty : ([] : List (List Char)) = within at leaves
  cases leaves with
  | here beyond =>
    subst empty
    rw [segments_inj.mp beyond]
  | inside _ => exact (segments_ne_nil _ (List.append_eq_nil_iff.mp empty.symm).1).elim

theorem append (leaves : Leaves within keys below) (more : List String) :
    Leaves within (keys ++ more) (below ++ more) := by
  induction leaves with
  | here beyond => exact .here beyond
  | inside _ ih => exact .inside ih

/-- Up to the first key beyond the segments, and then on. -/
theorem split {rest : String} {after : List String} (leaves : Leaves within keys (rest :: after)) :
    ∃ first, keys = first ++ after ∧ Leaves within first [rest] := by
  generalize same : rest :: after = below at leaves
  induction leaves with
  | @here _ key _ _ beyond =>
    cases same
    exact ⟨[key], rfl, .here beyond⟩
  | @inside _ key _ _ _ ih =>
    obtain ⟨first, rfl, leaves⟩ := ih same
    exact ⟨key :: first, rfl, .inside leaves⟩

end Leaves

end Path

end Gatehouse
