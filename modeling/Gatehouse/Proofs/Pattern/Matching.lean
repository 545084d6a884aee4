/-
**Where patterns match.**

The positions where a match can end are computed as ascending lists, and those of a repetition in
rounds, each of which goes on from what the round before has newly reached. For patterns whose
repetitions have bounds in order this is the relation of matching: a match never goes back, so that
of more repetitions than there are characters some stay where they are and can be left out.

* `Pattern.IsOrdered`: the bounds of repetitions are in order;
* `Pattern.mem_stepUpTo_iff`: what the rounds reach;
* **`Pattern.mem_ends_iff`**: the computed positions are those of the relation;
* `Pattern.MatchesWhole`: a match from the first character of a text to the last;
* **`Pattern.isMatch_between_iff`**: between the tests for both ends only whole texts match.
-/

import Gatehouse.Pattern.Basic

namespace Gatehouse

namespace Pattern

variable {step : Nat → List Nat} {positions reached latest : List Nat} {count first last : Nat}

/-! ### Ascending lists -/

theorem mem_insert_iff {x y : Nat} {numbers : List Nat} :
    y ∈ insert x numbers ↔ y = x ∨ y ∈ numbers := by
  fun_induction insert x numbers with
  | case1 => rw [List.mem_singleton, or_iff_left List.not_mem_nil]
  | case2 => rw [List.mem_cons]
  | case3 rest => rw [List.mem_cons, ← or_assoc, or_self]
  | case4 z rest _ _ ih => rw [List.mem_cons, ih, List.mem_cons, or_left_comm]

theorem mem_merge_iff {y : Nat} {more numbers : List Nat} :
    y ∈ merge more numbers ↔ y ∈ more ∨ y ∈ numbers := by
  unfold merge
  induction more generalizing numbers with
  | nil => rw [List.foldl_nil, or_iff_right List.not_mem_nil]
  | cons x rest ih => rw [List.foldl_cons, ih, mem_insert_iff, List.mem_cons, or_left_comm, or_assoc]

theorem mem_stepAll_iff {y : Nat} :
    y ∈ stepAll step positions ↔ ∃ position ∈ positions, y ∈ step position := by
  have gathered : ∀ before, y ∈ positions.foldl
      (fun reached position => merge (step position) reached) before ↔
      y ∈ before ∨ ∃ position ∈ positions, y ∈ step position := by
    induction positions with
    | nil => simp
    | cons position rest ih =>
      intro before
      simp only [List.foldl_cons, ih, mem_merge_iff, List.mem_cons, exists_eq_or_imp, or_assoc,
        or_left_comm]
  rw [stepAll, gathered, or_iff_right List.not_mem_nil]

/-! ### Steps -/

/-- A step of a relation that a list gives. -/
abbrev Leads (step : Nat → List Nat) (first last : Nat) : Prop := last ∈ step first

theorem Steps.zero_iff {relation : Nat → Nat → Prop} :
    Steps relation 0 first last ↔ first = last :=
  ⟨fun | .none _ => rfl, fun same => same ▸ .none first⟩

theorem Steps.succ_iff {relation : Nat → Nat → Prop} :
    Steps relation (count + 1) first last ↔
      ∃ middle, relation first middle ∧ Steps relation count middle last :=
  ⟨fun | .one here rest => ⟨_, here, rest⟩, fun ⟨_, here, rest⟩ => .one here rest⟩

theorem Steps.mono {relation other : Nat → Nat → Prop}
    (within : ∀ first last, relation first last → other first last)
    (steps : Steps relation count first last) : Steps other count first last := by
  induction steps with
  | none position => exact .none position
  | one here _ ih => exact .one (within _ _ here) ih

theorem Steps.add {relation : Nat → Nat → Prop} {more middle : Nat}
    (steps : Steps relation count first middle) (others : Steps relation more middle last) :
    Steps relation (count + more) first last := by
  induction steps with
  | none => rwa [Nat.zero_add]
  | one here _ ih => exact Nat.succ_add _ _ ▸ .one here (ih others)

theorem Steps.split {relation : Nat → Nat → Prop} {more : Nat}
    (steps : Steps relation (count + more) first last) :
    ∃ middle, Steps relation count first middle ∧ Steps relation more middle last := by
  induction count generalizing first with
  | zero => exact ⟨first, .none first, Nat.zero_add more ▸ steps⟩
  | succ count ih =>
    obtain ⟨next, here, rest⟩ := succ_iff.mp (Nat.succ_add count more ▸ steps)
    obtain ⟨middle, before, after⟩ := ih rest
    exact ⟨middle, .one here before, after⟩

/-- Steps do not leave what each step keeps to. -/
theorem Steps.keeps {relation : Nat → Nat → Prop} {inside : Nat → Prop}
    (kept : ∀ first last, relation first last → inside first → inside last)
    (steps : Steps relation count first last) (start : inside first) : inside last := by
  induction steps with
  | none => exact start
  | one here _ ih => exact ih (kept _ _ here start)

/-- Steps that never go back stay within what they reach. -/
theorem Steps.le {relation : Nat → Nat → Prop}
    (forward : ∀ first last, relation first last → first ≤ last)
    (steps : Steps relation count first last) : first ≤ last :=
  @keeps _ _ _ _ (first ≤ ·) (fun _ _ here le => Nat.le_trans le (forward _ _ here)) steps
    (Nat.le_refl first)

/-- Of steps that never go back, those that stay where they are can be left out. -/
theorem Steps.shorten {relation : Nat → Nat → Prop}
    (forward : ∀ first last, relation first last → first ≤ last)
    (steps : Steps relation count first last) :
    ∃ fewer ≤ count, fewer ≤ last - first ∧ Steps relation fewer first last := by
  induction steps with
  | none position => exact ⟨0, Nat.le_refl 0, Nat.zero_le _, .none position⟩
  | @one count first middle last here rest ih =>
    obtain ⟨fewer, le, short, others⟩ := ih
    have later := forward _ _ here
    have end_le := rest.le forward
    by_cases stays : first = middle
    · exact ⟨fewer, Nat.le_succ_of_le le, stays ▸ short, stays ▸ others⟩
    · exact ⟨fewer + 1, Nat.succ_le_succ le, by omega, .one here others⟩

theorem mem_stepTimes_iff :
    last ∈ stepTimes step count positions ↔
      ∃ position ∈ positions, Steps (Leads step) count position last := by
  induction count generalizing positions with
  | zero => simp only [stepTimes, Steps.zero_iff, exists_eq_right]
  | succ count ih =>
    rw [stepTimes]
    split
    case isTrue empty =>
      rw [List.isEmpty_iff.mp empty]
      exact iff_of_false List.not_mem_nil fun ⟨_, absent, _⟩ => List.not_mem_nil absent
    case isFalse =>
      simp only [ih, mem_stepAll_iff, Steps.succ_iff]
      constructor
      · rintro ⟨middle, ⟨position, member, here⟩, rest⟩
        exact ⟨position, member, middle, here, rest⟩
      · rintro ⟨position, member, middle, here, rest⟩
        exact ⟨middle, ⟨position, member, here⟩, rest⟩

/-- What the rounds reach, if all that was reached before the last round has been gone on from. -/
theorem mem_stepUpTo_iff (old : ∀ position ∈ latest, position ∈ reached)
    (explored : ∀ position ∈ reached, position ∉ latest →
      ∀ next ∈ step position, next ∈ reached) :
    last ∈ stepUpTo step count reached latest ↔
      ∃ position ∈ reached, ∃ further ≤ count, Steps (Leads step) further position last := by
  induction count generalizing reached latest with
  | zero => simp only [stepUpTo, Nat.le_zero, exists_eq_left, Steps.zero_iff, exists_eq_right]
  | succ count ih =>
    rw [stepUpTo]
    have mem_fresh : ∀ next, next ∈ (stepAll step latest).filter
        (fun position => !reached.contains position) ↔
        (∃ position ∈ latest, next ∈ step position) ∧ next ∉ reached := by
      intro next
      rw [List.mem_filter, mem_stepAll_iff, Bool.not_eq_true', ← Bool.not_eq_true,
        List.contains_iff_mem]
    -- a step from what was reached leads to what was reached or to what is fresh
    have known : ∀ position ∈ reached, ∀ next ∈ step position, next ∈ reached ∨
        next ∈ (stepAll step latest).filter (fun position => !reached.contains position) := by
      intro position member next leads
      by_cases late : position ∈ latest
      · by_cases old : next ∈ reached
        · exact .inl old
        · exact .inr ((mem_fresh next).mpr ⟨⟨position, late, leads⟩, old⟩)
      · exact .inl (explored position member late next leads)
    generalize (stepAll step latest).filter (fun position => !reached.contains position) = fresh
      at mem_fresh known
    split
    case isTrue empty =>
      have closed : ∀ position next, Leads step position next → position ∈ reached →
          next ∈ reached := by
        intro position next leads member
        refine (known position member next leads).resolve_right ?_
        rw [List.isEmpty_iff.mp empty]
        exact List.not_mem_nil
      constructor
      · exact fun member => ⟨last, member, 0, Nat.zero_le _, .none last⟩
      · exact fun ⟨position, member, further, _, steps⟩ => steps.keeps closed member
    case isFalse =>
      rw [ih (fun position member => mem_merge_iff.mpr (.inl member))]
      · constructor
        · rintro ⟨position, member, further, le, steps⟩
          rcases mem_merge_iff.mp member with new | old
          · obtain ⟨⟨before, late, leads⟩, _⟩ := (mem_fresh position).mp new
            exact ⟨before, old before late, further + 1, Nat.succ_le_succ le, .one leads steps⟩
          · exact ⟨position, old, further, Nat.le_succ_of_le le, steps⟩
        · rintro ⟨position, member, further, le, steps⟩
          cases steps with
          | none => exact ⟨_, mem_merge_iff.mpr (.inr member), 0, Nat.zero_le _, .none _⟩
          | one here rest =>
            exact ⟨_, mem_merge_iff.mpr (known _ member _ here).symm, _,
              Nat.le_of_succ_le_succ le, rest⟩
      · intro position member late next leads
        have old := (mem_merge_iff.mp member).resolve_left late
        exact mem_merge_iff.mpr (known position old next leads).symm

/-! ### Matches -/

/-- The bounds of every repetition are in order. -/
def IsOrdered : Pattern → Prop
  | append first second => first.IsOrdered ∧ second.IsOrdered
  | or first second => first.IsOrdered ∧ second.IsOrdered
  | repeated inner least most => inner.IsOrdered ∧ ∀ limit ∈ most, least ≤ limit
  | _ => True

/-- A match never goes back, and never beyond the end of the text. -/
theorem Matches.le {text : Array Char} {pattern : Pattern} (found : Matches text pattern first last) :
    first ≤ last ∧ last ≤ max first text.size := by
  induction pattern generalizing first last with
  | empty => exact ⟨Nat.le_of_eq found, found ▸ Nat.le_max_left ..⟩
  | set chars =>
    obtain ⟨c, here, _, rfl⟩ := found
    have := (Array.getElem?_eq_some_iff.mp here).1
    omega
  | look test => exact ⟨Nat.le_of_eq found.1, found.1 ▸ Nat.le_max_left ..⟩
  | append left right left_ih right_ih =>
    obtain ⟨middle, before, after⟩ := found
    have := left_ih before
    have := right_ih after
    omega
  | or left right left_ih right_ih => exact found.elim left_ih right_ih
  | repeated inner least most ih =>
    obtain ⟨count, -, -, steps⟩ := found
    have kept : ∀ before after, Matches text inner before after →
        first ≤ before ∧ before ≤ max first text.size →
        first ≤ after ∧ after ≤ max first text.size := by
      intro before after here inside
      have := ih here
      omega
    exact steps.keeps kept ⟨Nat.le_refl first, Nat.le_max_left ..⟩

/-- **The computed positions are those where a match can end.** -/
theorem mem_ends_iff {text : Array Char} {pattern : Pattern} (ordered : pattern.IsOrdered) :
    last ∈ ends text pattern first ↔ Matches text pattern first last := by
  induction pattern generalizing first last with
  | empty => exact List.mem_singleton.trans eq_comm
  | set chars =>
    rw [ends, Matches]
    cases text[first]? with
    | none => simp
    | some c => by_cases member : chars.contains c <;> simp [member]
  | look test =>
    rw [ends, Matches]
    by_cases holds : test.holds (before? text first) text[first]? <;> simp [holds, eq_comm]
  | append left right left_ih right_ih =>
    simp only [ends, Matches, mem_stepAll_iff, left_ih ordered.1, right_ih ordered.2]
  | or left right left_ih right_ih =>
    simp only [ends, Matches, mem_merge_iff, left_ih ordered.1, right_ih ordered.2]
  | repeated inner least most ih =>
    have leads : ∀ count first last, Steps (Leads (ends text inner)) count first last ↔
        Steps (Matches text inner) count first last := fun count first last =>
      ⟨.mono fun _ _ => (ih ordered.1).mp, .mono fun _ _ => (ih ordered.1).mpr⟩
    simp only [ends, mem_stepUpTo_iff (fun _ member => member)
      (fun _ member absent => (absent member).elim), mem_stepTimes_iff, List.mem_singleton,
      exists_eq_left, leads, Matches]
    constructor
    · rintro ⟨middle, before, further, le, after⟩
      refine ⟨least + further, Nat.le_add_right .., fun limit given => ?_, before.add after⟩
      have order := ordered.2 limit given
      obtain rfl := Option.mem_def.mp given
      simp only at le
      omega
    · rintro ⟨count, le, limits, steps⟩
      obtain ⟨further, rfl⟩ := Nat.exists_eq_add_of_le le
      obtain ⟨middle, before, after⟩ := steps.split
      -- more repetitions than there are characters are not needed
      obtain ⟨fewer, less, short, others⟩ := after.shorten fun _ _ found => found.le.1
      have found : Matches text (.repeated inner 0 none) middle last :=
        ⟨further, Nat.zero_le _, fun _ absent => (Option.not_mem_none _ absent).elim, after⟩
      have inside := found.le.2
      refine ⟨middle, before, fewer, ?_, others⟩
      cases most with
      | none => show fewer ≤ text.size; omega
      | some limit =>
        have := limits limit rfl
        show fewer ≤ min (limit - least) text.size
        omega

theorem isMatch_eq_true_iff {pattern : Pattern} (ordered : pattern.IsOrdered) {text : String} :
    pattern.isMatch text = true ↔
      ∃ first ≤ text.length, ∃ last, Matches text.toList.toArray pattern first last := by
  simp only [isMatch, List.any_eq_true, List.mem_range, Bool.not_eq_true', List.isEmpty_eq_false_iff,
    List.size_toArray, String.length_toList, Nat.lt_succ_iff, ← mem_ends_iff ordered]
  exact exists_congr fun first => and_congr_right fun _ =>
    ⟨List.exists_mem_of_ne_nil _, fun ⟨_, member⟩ => List.ne_nil_of_mem member⟩

/-! ### Whole texts -/

/-- A match from the first character of a text to the last. -/
def MatchesWhole (pattern : Pattern) (text : String) : Prop :=
  Matches text.toList.toArray pattern 0 text.length

theorem matchesWhole_or_iff {left right : Pattern} {text : String} :
    (or left right).MatchesWhole text ↔ left.MatchesWhole text ∨ right.MatchesWhole text :=
  Iff.rfl

/-- A pattern between the tests for both ends of a text. -/
def between (pattern : Pattern) : Pattern :=
  .append (.append (.look .start) pattern) (.look .finish)

/-- **Between the tests for both ends only whole texts match.** -/
theorem isMatch_between_iff {pattern : Pattern} (ordered : pattern.IsOrdered) {text : String} :
    pattern.between.isMatch text = true ↔ pattern.MatchesWhole text := by
  have size : text.toList.toArray.size = text.length := String.length_toList
  have all_ordered : pattern.between.IsOrdered := ⟨⟨trivial, ordered⟩, trivial⟩
  rw [isMatch_eq_true_iff all_ordered, MatchesWhole]
  constructor
  · rintro ⟨first, within, last, middle, ⟨_, ⟨rfl, starts⟩, found⟩, rfl, finishes⟩
    have first_eq : first = 0 := by
      refine Decidable.byContradiction fun later => ?_
      have inside : first - 1 < text.toList.toArray.size := by omega
      rw [Look.holds, before?, if_neg later, Array.getElem?_eq_getElem inside] at starts
      exact Bool.false_ne_true starts
    have last_eq : middle = text.length := by
      have := found.le.2
      rw [Look.holds, Option.isNone_iff_eq_none, Array.getElem?_eq_none_iff] at finishes
      omega
    rwa [first_eq, last_eq] at found
  · intro found
    refine ⟨0, Nat.zero_le _, text.length, text.length, ⟨0, ⟨rfl, rfl⟩, found⟩, rfl, ?_⟩
    rw [Look.holds, Option.isNone_iff_eq_none, Array.getElem?_eq_none_iff]
    omega

end Pattern

end Gatehouse
