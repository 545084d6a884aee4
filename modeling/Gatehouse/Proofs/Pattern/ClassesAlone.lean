/-
**Classes without what follows.**

A class, and with it every item of a pattern, is found without the parenthesis behind it. Reading an
item of a class needs something behind the item, but what goes on from there needs a bracket; and a
test for a word boundary is no item of a class.

* `Pattern.classRange_modest`: the reader of an item or a range of items, but at the end of a text;
* **`Pattern.isModest_classSet`**: the reader of classes;
* **`Pattern.Flags.move_modest`**: the reader of items, but for a test for a word boundary before a
  brace.
-/

import Gatehouse.Proofs.Pattern.Alone
import Gatehouse.Proofs.Pattern.Moves

namespace Gatehouse

namespace Pattern

variable {flags : Flags} {text rest after : List Char}

/-! ### Names of sets -/

theorem setNamed_eq_some_iff {negated : Bool} {chars : CharSet} :
    setNamed negated text = some (chars, rest) ↔
      ∃ name, text = name ++ ':' :: ']' :: rest ∧ ':' ∉ name ∧
        (CharSet.named? (String.ofList name)).map
          (fun chars => if negated then CharSet.negate chars else chars) = some chars := by
  unfold setNamed
  constructor
  · intro found
    split at found
    case h_2 => exact nomatch found
    case h_1 name left split =>
      obtain ⟨same, absent⟩ := Text.splitFirst?_eq_some_iff.mp split
      obtain ⟨set, named, both⟩ := Option.map_eq_some_iff.mp found
      obtain ⟨chosen, rfl⟩ := Prod.mk.inj both
      exact ⟨name, same, absent, Option.map_eq_some_iff.mpr ⟨set, named, chosen⟩⟩
  · rintro ⟨name, same, absent, named⟩
    obtain ⟨set, known, rfl⟩ := Option.map_eq_some_iff.mp named
    rw [Text.splitFirst?_eq_some_iff.mpr ⟨same, absent⟩]
    simp only [known, Option.map_some]

/-- Read the name of a set up to the colon and the bracket behind it. -/
def setEnd (negated : Bool) : Reader CharSet := fun text =>
  match setNamed negated text with
  | some found => .ok found
  | none => .error .classOperation

theorem setEnd_eq_ok_iff {negated : Bool} {found : CharSet × List Char} :
    setEnd negated text = .ok found ↔ setNamed negated text = some found := by
  unfold setEnd
  cases setNamed negated text with
  | none => exact iff_of_false nofun nofun
  | some read => exact ⟨fun same => congrArg some (Except.ok.inj same), fun same =>
      congrArg Except.ok (Option.some.inj same)⟩

theorem isModest_setEnd (negated : Bool) : IsModest (setEnd negated) := by
  refine .of (fun found => ?_) fun {text after chars rest} found => ?_
  · obtain ⟨name, rfl, -⟩ := setNamed_eq_some_iff.mp (setEnd_eq_ok_iff.mp found)
    exact ((List.suffix_cons _ _).trans (List.suffix_cons _ _)).trans (List.suffix_append _ _)
  · obtain ⟨name, same, valid⟩ := setNamed_eq_some_iff.mp (setEnd_eq_ok_iff.mp found)
    have same : text ++ ')' :: after = name ++ ':' :: ']' :: rest ++ ')' :: after := by
      rw [same, List.append_assoc, List.cons_append, List.cons_append]
    exact setEnd_eq_ok_iff.mpr
      (setNamed_eq_some_iff.mpr ⟨name, List.append_cancel_right same, valid⟩)

theorem setRead_bracket (text : List Char) :
    setRead ('[' :: text) = Reader.past ':'
      (Reader.past '^' (setEnd true) (setEnd false)) (Reader.fail .classOperation) text := by
  unfold setRead
  by_cases colon : ∃ inner, text = ':' :: inner
  case neg =>
    have absent : namedSet? ('[' :: text) = none := by
      rw [namedSet?]
      exact fun inner same => colon ⟨inner, (List.cons.inj same).2⟩
    rw [absent, Reader.past_of_ne fun inner same => colon ⟨inner, same⟩]
    rfl
  case pos =>
    obtain ⟨inner, rfl⟩ := colon
    rw [Reader.past_cons]
    by_cases sign : ∃ unsigned, inner = '^' :: unsigned
    · obtain ⟨unsigned, rfl⟩ := sign
      rfl
    · rw [Reader.past_of_ne fun unsigned same => sign ⟨unsigned, same⟩,
        show namedSet? ('[' :: ':' :: inner) = setNamed false inner from
          namedSet?.eq_2 inner fun unsigned same => sign ⟨unsigned, same⟩]
      rfl

theorem isModest_setRead : IsModest fun text => setRead ('[' :: text) := by
  simp only [setRead_bracket]
  exact .past (by decide) (.past (by decide) (isModest_setEnd true) (isModest_setEnd false))
    (.fail _)

/-! ### Items -/

theorem dropWhile_closing (blank : text.dropWhile Text.isBlank = []) (after : List Char) :
    (text ++ ')' :: after).dropWhile Text.isBlank = ')' :: after := by
  have shown : ¬Text.isBlank ')' = true := by decide
  rw [List.dropWhile_append, blank]
  exact List.dropWhile_cons_of_neg shown

theorem ahead_closing (absent : ahead text = none) (after : List Char) :
    ahead (text ++ ')' :: after) = some ')' := by
  unfold ahead at absent ⊢
  split at absent
  case h_1 others same =>
    rw [dropWhile_append_of_ne_nil (by rw [same]; exact List.cons_ne_nil _ _), same]
    show ((others ++ ')' :: after).dropWhile Text.isBlank).head? = _
    rw [dropWhile_closing (List.head?_eq_none_iff.mp absent)]
    rfl
  case h_2 => exact nomatch absent
  case h_3 same => rw [dropWhile_closing same]; rfl

/-- Before a closing parenthesis nothing else is found ahead than without it. -/
theorem peek_closing {c : Char} (other : c ≠ ')')
    (found : peek flags (text ++ ')' :: after) = some c) : peek flags text = some c := by
  rw [peek_eq] at found ⊢
  have front : (text ++ ')' :: after).head? = some c → text.head? = some c := by
    cases text with
    | nil => exact fun closing => (other (Option.some.inj closing).symm).elim
    | cons d text => exact id
  split at found
  case isFalse bound => rw [if_neg bound]; exact front found
  case isTrue free =>
    rw [if_pos free]
    cases here : ahead text with
    | some d => rw [ahead_append here] at found; exact found
    | none =>
      rw [ahead_closing here] at found
      exact (other (Option.some.inj found).symm).elim

/-- Reading an item of a class, but for a test. -/
theorem classItem_modest (flags : Flags) (c : Char) :
    IsModestBut (fun item _ => ∃ test, item = .look test) fun text => classItem flags (c :: text) := by
  by_cases backslash : c = '\\'
  · subst backslash
    exact (escape_modest flags).mono fun spared => ⟨_, spared.1⟩
  · have plain : ∀ text, classItem flags (c :: text) = .ok (.char c, text) := by
      intro text
      rw [classItem]
      exact fun same => backslash same
    simp only [plain]
    exact (IsModestBut.pure _).mono False.elim

theorem isModest_rangeLast (flags : Flags) (first : Atom) : IsModest (rangeLast flags first) := by
  have item : IsModestBut (fun item _ => ∃ test, item = .look test) (classItem flags) :=
    .of_cons (fun _ => nofun) (classItem_modest flags)
  refine item.bind_of (fun last => .judged _) fun spared found => ?_
  obtain ⟨test, rfl⟩ := spared
  -- a test ends no range
  cases first <;> exact nomatch found

/-- Reading the rest of a range, but at the end of a text. -/
theorem rangeRest_modest (flags : Flags) (first : Atom) :
    IsModestBut (fun _ rest => rest = []) (rangeRest flags first) := by
  have plain : ∀ {c}, c ≠ '-' → ∀ text,
      rangeRest flags first (c :: text) = first.ranges.map (·, c :: text) := by
    intro c other text
    rw [rangeRest]
    · exact fun empty => List.cons_ne_nil _ _ empty
    · exact fun rest same => other (List.cons.inj same).1
  have judged := IsModestBut.judged first.ranges
  have last := (isModest_rangeLast flags first).skip flags
  refine ⟨fun {text _ _} found => ?_, fun {text after _ rest} found => ?_⟩
  · cases text with
    | nil => cases found
    | cons c text =>
      by_cases hyphen : c = '-'
      · subst hyphen
        rw [rangeRest] at found
        split at found
        · exact judged.leaves found
        · exact (last.leaves found).trans (List.suffix_cons _ _)
      · rw [plain hyphen] at found
        exact judged.leaves found
  · cases text with
    | nil =>
      rw [List.nil_append, plain (by decide)] at found
      cases ranges : first.ranges with
      | error fault => rw [ranges] at found; cases found
      | ok ranges =>
        rw [ranges] at found
        exact .inr (List.self_eq_append_left.mp (Prod.mk.inj (Except.ok.inj found)).2)
    | cons c text =>
      left
      by_cases hyphen : c = '-'
      · subst hyphen
        rw [List.cons_append, rangeRest] at found
        rw [rangeRest]
        split at found
        case isTrue ends =>
          rw [if_pos (ends.imp (peek_closing (by decide)) (peek_closing (by decide)))]
          exact judged.alone found
        case isFalse goes =>
          rw [if_neg fun ends => goes (ends.imp
            (peek_append_of_some (by decide) (by decide) · _)
            (peek_append_of_some (by decide) (by decide) · _))]
          exact last.alone found
      · rw [List.cons_append, plain hyphen] at found
        rw [plain hyphen]
        exact judged.alone found

/-- A test begins no range and stands for no characters. -/
theorem rangeRest_look {test : Look} {found : List (Nat × Nat) × List Char} :
    rangeRest flags (.look test) text ≠ .ok found := by
  intro read
  unfold rangeRest at read
  split at read
  case h_1 => exact nomatch read
  case h_2 =>
    split at read
    case isTrue => exact nomatch read
    case isFalse =>
      obtain ⟨last, _, _, refused⟩ := Reader.of_bind read
      exact nomatch refused
  case h_3 => exact nomatch read

/-- Reading an item or a range of items, but at the end of a text. -/
theorem classRange_modest (flags : Flags) (c : Char) :
    IsModestBut (fun _ rest => rest = []) fun text => classRange flags (c :: text) := by
  have same : (fun text => classRange flags (c :: text)) =
      Reader.bind (fun text => classItem flags (c :: text)) fun item rest =>
        rangeRest flags item (flags.skip rest) := funext fun text => classRange_eq flags (c :: text)
  rw [same]
  refine (classItem_modest flags c).bind_of (fun item => (rangeRest_modest flags item).skip flags)
    fun spared found => ?_
  obtain ⟨test, rfl⟩ := spared
  exact (rangeRest_look found).elim

/-! ### Classes -/

theorem isOperation_closing {c : Char} :
    isOperation (c :: (text ++ ')' :: after)) = isOperation (c :: text) := by
  cases text with
  | cons d text => rfl
  | nil =>
    rw [List.nil_append, isOperation, isOperation]
    by_cases closing : c = ')'
    · subst closing; rfl
    · rw [decide_eq_false closing, Bool.false_and]
    · exact fun _ _ _ => nofun

/-- Reading one thing in a class, and on to its closing bracket. -/
theorem isModest_itemsFrom_cons {next : List (Nat × Nat) → Reader (List (Nat × Nat))}
    (reads : ∀ ranges, IsModest (next ranges))
    (shorter : ∀ ranges {text found rest}, next ranges text = .ok (found, rest) →
      rest.length < text.length) (ranges : List (Nat × Nat)) (c : Char) :
    IsModest fun text => itemsFrom flags next ranges (c :: text) := by
  by_cases closes : c = ']'
  · subst closes
    exact .pure ranges
  by_cases opens : c = '['
  · subst opens
    simp only [itemsFrom_bracket]
    exact isModest_setRead.bind fun chars => reads (ranges ++ chars)
  -- an item at the end of a text has nothing behind it that closes the class
  have item : IsModest (Reader.bind (fun text => classRange flags (c :: text))
      fun more => next (ranges ++ more)) :=
    (classRange_modest flags c).bind_of (fun more => reads (ranges ++ more)) fun empty found => by
      subst empty
      exact ne_ok_of_closing (shorter _) found
  refine .of (fun {text _ _} found => ?_) fun {text after _ _} found => ?_
  · rw [itemsFrom_cons opens closes] at found
    split at found
    case isTrue => exact nomatch found
    case isFalse => exact item.leaves found
  · rw [itemsFrom_cons opens closes, isOperation_closing] at found
    rw [itemsFrom_cons opens closes]
    split at found
    case isTrue => exact nomatch found
    case isFalse plain =>
      rw [if_neg plain]
      exact item.alone found

theorem classItems_modest (flags : Flags) (count : Nat) (ranges : List (Nat × Nat)) :
    IsModest (classItems flags count ranges) ∧
      ∀ {text found rest}, classItems flags count ranges text = .ok (found, rest) →
        rest.length < text.length := by
  induction count generalizing ranges with
  | zero => exact ⟨.fail _, nofun⟩
  | succ count ih =>
    have items := @isModest_itemsFrom_cons flags _ (fun ranges => (ih ranges).1)
      fun ranges => (ih ranges).2
    rw [show classItems flags (count + 1) ranges = _ from funext (classItems_succ flags count ranges)]
    refine ⟨IsModestBut.skip flags (.of_cons (fun _ => nofun) (items ranges)),
      fun {text found rest} read => ?_⟩
    have shorter := flags.length_skip_le text
    dsimp only at read
    cases inner : flags.skip text with
    | nil => rw [inner] at read; exact nomatch read
    | cons c others =>
      rw [inner] at read shorter
      have left := ((items ranges c).leaves read).length_le
      rw [List.length_cons] at shorter
      omega

theorem isModest_classBody (flags : Flags) (first : List (Nat × Nat)) :
    IsModest (classBody flags first) :=
  IsModestBut.of_enough (fun count => classItems flags count first) 1
    (fun _ _ enough => classItems_enough enough (Nat.lt_succ_self _))
    fun count => (classItems_modest flags count first).1

theorem isModest_classSigned (flags : Flags) (negated : Bool) :
    IsModest (classSigned flags negated) := by
  have ranges : IsModest (classRanges flags) := by
    refine (flags.isModest_front (· = '-') rfl).bind fun hyphens => ?_
    split
    · exact .past (by decide) ((isModest_classBody flags _).skip flags) (isModest_classBody flags _)
    · exact isModest_classBody flags _
  exact ranges.check (classChars flags negated)

/-- **The reader of classes.** -/
theorem isModest_classSet (flags : Flags) : IsModest (classSet flags) := by
  rw [show classSet flags = _ from funext (classSet_eq flags)]
  exact (IsModestBut.past (by decide) ((isModest_classSigned flags true).skip flags)
    (isModest_classSigned flags false)).skip flags

/-! ### Items of patterns -/

/-- The items of patterns that are spared: a test before a brace at the end. -/
def SparedMove (flags : Flags) (move : Move) (rest : List Char) : Prop :=
  (∃ piece, move = .add piece) ∧ AtBrace flags rest

/-- **The reader of items**, but for a test for a word boundary before a brace. -/
theorem Flags.move_modest (flags : Flags) (c : Char) :
    IsModestBut (SparedMove flags) (flags.move c) := by
  have spare : ∀ {read : Reader Move}, IsModest read → IsModestBut (SparedMove flags) read :=
    fun reads => reads.mono False.elim
  unfold move
  split
  case h_1 => exact spare ((isModest_opening flags).check fun opened => .ok (Move.enter opened))
  case h_4 => exact spare ((isModest_classSet flags).check fun chars => .ok (Move.add (.set chars)))
  case h_5 | h_6 | h_7 => exact spare (isModest_skipLazy.check fun _ => .ok _)
  case h_8 =>
    exact spare ((isModest_bounds flags).check fun range => .ok (Move.repeatLast range.1 range.2))
  case h_9 =>
    refine (escape_modest flags).bind_of (fun atom => spare (.pure _)) fun spared found => ?_
    obtain ⟨rfl, same⟩ := Prod.mk.inj (Except.ok.inj found)
    exact ⟨⟨_, rfl⟩, List.append_cancel_right same ▸ spared.2⟩
  all_goals exact spare (.pure _)

end Pattern

end Gatehouse
