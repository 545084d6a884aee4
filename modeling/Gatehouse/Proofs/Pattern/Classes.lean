/-
**Reading character classes.**

A class in brackets is read as it is read before a closing parenthesis. The readers look one or two
characters ahead, for the name of a set, for a range and for an operation: at the end of a text they
find nothing there, and without its closing bracket no class is read.

* `Pattern.isLocal_classRange`: the reader of an item or a range of items;
* `Pattern.isLocal_classItems`: the reader of the rest of a class;
* **`Pattern.isLocal_classSet`**: the reader of classes.
-/

import Gatehouse.Pattern.Brackets
import Gatehouse.Proofs.Pattern.Reading
import Mathlib.Data.List.Basic

namespace Gatehouse

namespace Pattern

variable {flags : Flags} {text rest : List Char}

/-! ### Looking ahead -/

/-- The set of a name that ends with a colon and a bracket. -/
def setNamed (negated : Bool) (text : List Char) : Option (CharSet × List Char) :=
  match Text.splitFirst? ':' text with
  | some (name, ']' :: rest) =>
    (CharSet.named? (String.ofList name)).map fun chars =>
      (if negated then CharSet.negate chars else chars, rest)
  | _ => none

theorem setNamed_append {negated : Bool} {chars : CharSet}
    (found : setNamed negated text = some (chars, rest)) (after : List Char) :
    setNamed negated (text ++ after) = some (chars, rest ++ after) ∧ rest.length < text.length := by
  unfold setNamed at found
  split at found
  case h_2 => exact nomatch found
  case h_1 name left split =>
    obtain ⟨rfl, absent⟩ := Text.splitFirst?_eq_some_iff.mp split
    obtain ⟨set, named, same⟩ := Option.map_eq_some_iff.mp found
    obtain ⟨rfl, rfl⟩ := Prod.mk.inj same
    have longer : Text.splitFirst? ':' (name ++ ':' :: ']' :: left ++ after) =
        some (name, ']' :: (left ++ after)) :=
      Text.splitFirst?_eq_some_iff.mpr ⟨by rw [List.append_assoc]; rfl, absent⟩
    refine ⟨by rw [setNamed, longer]; simp only [named, Option.map_some], ?_⟩
    simp only [List.length_append, List.length_cons]
    omega

/-- The name of a set is found whatever follows. -/
theorem namedSet?_append {chars : CharSet} (found : namedSet? text = some (chars, rest))
    (after : List Char) :
    namedSet? (text ++ after) = some (chars, rest ++ after) ∧ rest.length < text.length := by
  have begins : ∃ inner, text = '[' :: ':' :: inner := by
    unfold namedSet? at found
    split at found
    · exact ⟨_, rfl⟩
    · exact nomatch found
  obtain ⟨inner, rfl⟩ := begins
  by_cases sign : ∃ unsigned, inner = '^' :: unsigned
  · obtain ⟨unsigned, rfl⟩ := sign
    obtain ⟨longer, shorter⟩ := setNamed_append found after
    exact ⟨longer, by simp only [List.length_cons]; omega⟩
  · have plain : ∀ text, (∀ unsigned, text = '^' :: unsigned → False) →
        namedSet? ('[' :: ':' :: text) = setNamed false text := namedSet?.eq_2
    have signless : ∀ unsigned, inner = '^' :: unsigned → False := fun _ same => sign ⟨_, same⟩
    rw [plain inner signless] at found
    obtain ⟨longer, shorter⟩ := setNamed_append found after
    refine ⟨(plain _ fun unsigned same => ?_).trans longer,
      by simp only [List.length_cons]; omega⟩
    cases inner with
    | nil => exact nomatch found
    | cons c inner => exact signless inner (by rw [(List.cons.inj same).1])

/-- Read the name of a set. -/
def setRead : Reader CharSet := fun text =>
  match namedSet? text with
  | some found => .ok found
  | none => .error .classOperation

theorem isLocal_setRead : IsLocal setRead := by
  intro text chars rest found
  unfold setRead at found
  split at found
  case h_2 => exact nomatch found
  case h_1 named =>
    cases found
    refine .of_append (Nat.le_of_lt (namedSet?_append named []).2) fun after => ?_
    rw [setRead, (namedSet?_append named after).1]

theorem dropWhile_append_of_ne_nil {accepts : Char → Bool} (others : text.dropWhile accepts ≠ [])
    (after : List Char) :
    (text ++ after).dropWhile accepts = text.dropWhile accepts ++ after := by
  rw [List.dropWhile_append, if_neg fun empty => others (List.isEmpty_iff.mp empty)]

/-- Only blanks leave nothing. -/
theorem skipSpace_of_blank {inComment : Bool} (blank : text.dropWhile Text.isBlank = []) :
    skipSpace inComment text = [] := by
  induction text generalizing inComment with
  | nil => rfl
  | cons c rest ih =>
    by_cases first : Text.isBlank c = true
    · rw [List.dropWhile_cons_of_pos first] at blank
      cases inComment with
      | true => exact ih blank
      | false => rw [skipSpace, if_pos first, ih blank]
    · rw [List.dropWhile_cons_of_neg first] at blank
      exact (List.cons_ne_nil _ _ blank).elim

theorem skipSpace_dropWhile :
    skipSpace false (text.dropWhile Text.isBlank) = skipSpace false text := by
  induction text with
  | nil => rfl
  | cons c rest ih =>
    by_cases first : Text.isBlank c = true
    · rw [List.dropWhile_cons_of_pos first, ih, skipSpace, if_pos first]
    · rw [List.dropWhile_cons_of_neg first]

/-- The character behind blanks and the first sign that begins a comment. -/
def ahead (text : List Char) : Option Char :=
  match text.dropWhile Text.isBlank with
  | '#' :: after => (after.dropWhile Text.isBlank).head?
  | c :: _ => some c
  | [] => none

theorem peek_eq (flags : Flags) (text : List Char) :
    peek flags text = if flags.freeSpacing then (ahead text).or text.head? else text.head? := rfl

theorem ahead_append {c : Char} (found : ahead text = some c) (after : List Char) :
    ahead (text ++ after) = some c := by
  unfold ahead at found ⊢
  split at found
  case h_1 others same =>
    rw [dropWhile_append_of_ne_nil (by rw [same]; exact List.cons_ne_nil _ _), same]
    have nonempty : others.dropWhile Text.isBlank ≠ [] := by
      intro empty
      rw [empty] at found
      exact nomatch found
    show ((others ++ after).dropWhile Text.isBlank).head? = _
    rw [dropWhile_append_of_ne_nil nonempty, List.head?_append_of_ne_nil _ nonempty, found]
  case h_2 d others other same =>
    rw [dropWhile_append_of_ne_nil (by rw [same]; exact List.cons_ne_nil _ _), same]
    rw [← found, List.cons_append]
    split
    case h_1 same => exact (other (List.cons.inj same).1).elim
    case h_2 same => exact congrArg some (List.cons.inj same).1.symm
    case h_3 same => exact nomatch same
  case h_3 => exact nomatch found

/-- Nothing ahead means that only blanks and a comment are left. -/
theorem skipSpace_of_ahead (absent : ahead text = none) : skipSpace false text = [] := by
  unfold ahead at absent
  rw [← skipSpace_dropWhile]
  split at absent
  case h_1 others same =>
    rw [same]
    show skipSpace true others = []
    exact skipSpace_of_blank (List.head?_eq_none_iff.mp absent)
  case h_2 => exact nomatch absent
  case h_3 same => rw [same]; rfl

/-- A closing bracket or a hyphen that is found ahead is found whatever follows. -/
theorem peek_append_of_some {c : Char} (visible : Text.isBlank c = false) (plain : c ≠ '#')
    (found : peek flags text = some c) (after : List Char) :
    peek flags (text ++ after) = some c := by
  rw [peek_eq] at found ⊢
  split at found
  case isFalse bound =>
    rw [if_neg bound, List.head?_append_of_ne_nil, found]
    intro empty
    rw [empty] at found
    exact nomatch found
  case isTrue free =>
    rw [if_pos free]
    cases here : ahead text with
    | some d =>
      rw [here] at found
      rw [ahead_append here]
      exact found
    | none =>
      -- the character itself stands at the front, so that it is found ahead
      rw [here, Option.none_or] at found
      obtain ⟨others, rfl⟩ := List.head?_eq_some_iff.mp found
      rw [ahead, List.dropWhile_cons_of_neg (by rw [visible]; exact Bool.false_ne_true)] at here
      split at here
      case h_1 same => exact (plain (List.cons.inj same).1).elim
      case h_2 => exact nomatch here
      case h_3 same => exact nomatch same

/-- If more than blanks and comments is left, looking ahead finds the same whatever follows. -/
theorem peek_append_of_skip (others : flags.skip text ≠ []) (after : List Char) :
    peek flags (text ++ after) = peek flags text := by
  have nonempty : text ≠ [] := by
    intro empty
    rw [empty, Flags.skip_nil] at others
    exact others rfl
  rw [peek_eq, peek_eq, List.head?_append_of_ne_nil _ nonempty]
  unfold Flags.skip at others
  split
  case isTrue free =>
    rw [if_pos free] at others
    cases found : ahead text with
    | none => exact (others (skipSpace_of_ahead found)).elim
    | some c => rw [ahead_append found]
  case isFalse => rfl

/-! ### Items -/

/-- Reading an item takes a character. -/
theorem isLocal_classItem_cons (flags : Flags) (c : Char) :
    IsLocal fun text => classItem flags (c :: text) := by
  by_cases backslash : c = '\\'
  · subst backslash
    exact isLocal_escape flags
  · have plain : ∀ text, classItem flags (c :: text) = .ok (.char c, text) := by
      intro text
      rw [classItem]
      exact fun same => backslash same
    simp only [plain]
    exact .pure _

theorem isLocal_classItem (flags : Flags) : IsLocal (classItem flags) :=
  .of_cons (fun _ => nofun) fun c text _ _ found =>
    .cons (isLocal_classItem_cons flags c text _ _ found)

/-- The range between two items. -/
def rangeBetween (first last : Atom) : Except PatternFault (List (Nat × Nat)) := do
  let first ← first.rangeEnd
  let last ← last.rangeEnd
  if last < first then .error .classItem else return [(first.toNat, last.toNat)]

/-- Read the end of a range. -/
def rangeLast (flags : Flags) (first : Atom) : Reader (List (Nat × Nat)) :=
  Reader.bind (classItem flags) fun last rest => (rangeBetween first last).map (·, rest)

/-- Read what follows an item: a hyphen and the end of a range, or nothing. -/
def rangeRest (flags : Flags) (first : Atom) : Reader (List (Nat × Nat))
  | [] => .error .classNotClosed
  | '-' :: rest =>
    if peek flags rest = some ']' ∨ peek flags rest = some '-' then
      first.ranges.map (·, '-' :: rest)
    else rangeLast flags first (flags.skip rest)
  | rest => first.ranges.map (·, rest)

theorem classRange_eq (flags : Flags) (text : List Char) :
    classRange flags text =
      Reader.bind (classItem flags) (fun item rest => rangeRest flags item (flags.skip rest))
        text := by
  unfold classRange
  rw [Reader.bind_eq]
  refine congrArg _ (funext fun (item, rest) => ?_)
  show _ = rangeRest flags item (flags.skip rest)
  dsimp only
  generalize flags.skip rest = inner
  split
  case h_1 => rfl
  case h_2 rest =>
    rw [rangeRest]
    split
    case isTrue => cases item.ranges <;> rfl
    case isFalse =>
      generalize flags.skip rest = inner
      split
      case h_1 => rfl
      case h_2 =>
        rw [rangeLast, Reader.bind_eq]
        refine congrArg _ (funext fun (last, rest) => ?_)
        dsimp only [rangeBetween]
        cases item.rangeEnd with
        | error fault => rfl
        | ok first =>
          cases last.rangeEnd with
          | error fault => rfl
          | ok last =>
            dsimp only [bind, Except.bind]
            split <;> rfl
  case h_3 nonempty other =>
    rw [rangeRest]
    · cases item.ranges <;> rfl
    · exact nonempty
    · exact other

theorem isLocal_rangeLast (flags : Flags) (first : Atom) : IsLocal (rangeLast flags first) :=
  (isLocal_classItem flags).check (rangeBetween first)

/-- Reading an item or a range of items takes a character. -/
theorem isLocal_rangeRest (flags : Flags) (first : Atom) : IsLocal (rangeRest flags first) := by
  refine .of_cons (fun _ => nofun) fun c text item rest found => ?_
  by_cases hyphen : c = '-'
  case neg =>
    have plain : ∀ text, rangeRest flags first (c :: text) = first.ranges.map (·, c :: text) := by
      intro text
      rw [rangeRest]
      · exact nofun
      · exact fun rest same => hyphen (List.cons.inj same).1
    rw [plain] at found
    cases ranges : first.ranges with
    | error fault => rw [ranges] at found; exact nomatch found
    | ok ranges =>
      rw [ranges] at found plain
      obtain ⟨rfl, rfl⟩ := Prod.mk.inj (Except.ok.inj found)
      exact .of_append (Nat.le_refl _) fun after => plain _
  case pos =>
    subst hyphen
    rw [rangeRest] at found
    split at found
    case isTrue ends =>
      cases ranges : first.ranges with
      | error fault => rw [ranges] at found; exact nomatch found
      | ok ranges =>
        rw [ranges] at found
        obtain ⟨rfl, rfl⟩ := Prod.mk.inj (Except.ok.inj found)
        refine .of_append (Nat.le_refl _) fun after => ?_
        rw [List.cons_append, rangeRest, if_pos, ranges]
        · rfl
        · exact ends.imp (peek_append_of_some (by decide) (by decide) · after)
            (peek_append_of_some (by decide) (by decide) · after)
    case isFalse goes =>
      have nonempty : flags.skip text ≠ [] := by
        intro empty
        rw [empty] at found
        exact nomatch found
      refine .cons (((isLocal_rangeLast flags first).skip flags _ _ _ found).congr fun after => ?_)
      rw [rangeRest, peek_append_of_skip nonempty, if_neg goes]

theorem isLocal_classRange_cons (flags : Flags) (c : Char) :
    IsLocal fun text => classRange flags (c :: text) := by
  have same : (fun text => classRange flags (c :: text)) =
      Reader.bind (fun text => classItem flags (c :: text)) fun item rest =>
        rangeRest flags item (flags.skip rest) := funext fun text => classRange_eq flags (c :: text)
  rw [same]
  exact (isLocal_classItem_cons flags c).bind fun item => (isLocal_rangeRest flags item).skip flags

/-- One character does not close a class. -/
theorem classRange_single {c : Char} {found : List (Nat × Nat) × List Char}
    (read : classRange flags [c] = .ok found) : False := by
  rw [classRange_eq, Reader.bind] at read
  split at read
  case h_2 => cases read
  case h_1 rest item =>
    have shorter := (isLocal_classItem_cons flags c _ _ _ item).length_le
    rw [List.eq_nil_of_length_eq_zero (Nat.le_zero.mp shorter), Flags.skip_nil] at read
    cases read

theorem isLocal_classRange (flags : Flags) : IsLocal (classRange flags) :=
  .of_cons (fun _ => nofun) fun c text _ _ found =>
    .cons (isLocal_classRange_cons flags c text _ _ found)

/-! ### Classes -/

/-- Read one thing in a class, and go on. -/
def itemsFrom (flags : Flags) (next : List (Nat × Nat) → Reader (List (Nat × Nat)))
    (ranges : List (Nat × Nat)) : Reader (List (Nat × Nat))
  | [] => .error .classNotClosed
  | ']' :: rest => .ok (ranges, rest)
  | '[' :: rest =>
    match namedSet? ('[' :: rest) with
    | some (chars, rest) => next (ranges ++ chars) rest
    | none => .error .classOperation
  | text =>
    if isOperation text then .error .classOperation
    else Reader.bind (classRange flags) (fun more => next (ranges ++ more)) text

theorem classItems_succ (flags : Flags) (count : Nat) (ranges : List (Nat × Nat))
    (text : List Char) :
    classItems flags (count + 1) ranges text =
      itemsFrom flags (classItems flags count) ranges (flags.skip text) := by
  rw [classItems]
  generalize flags.skip text = inner
  split
  case h_1 => rfl
  case h_2 => rfl
  case h_3 rest =>
    cases found : namedSet? ('[' :: rest) with
    | none | some => simp only [itemsFrom, found]
  case h_4 nonempty closes opens =>
    rw [itemsFrom]
    · unfold Reader.bind
      split
      case isTrue => rfl
      case isFalse => cases classRange flags inner <;> rfl
    · exact nonempty
    · exact closes
    · exact opens

theorem itemsFrom_bracket {next : List (Nat × Nat) → Reader (List (Nat × Nat))}
    {ranges : List (Nat × Nat)} :
    itemsFrom flags next ranges ('[' :: text) =
      Reader.bind setRead (fun chars => next (ranges ++ chars)) ('[' :: text) := by
  rw [itemsFrom, Reader.bind, setRead]
  cases namedSet? ('[' :: text) <;> rfl

theorem itemsFrom_cons {c : Char} {next : List (Nat × Nat) → Reader (List (Nat × Nat))}
    {ranges : List (Nat × Nat)} (opens : c ≠ '[') (closes : c ≠ ']') :
    itemsFrom flags next ranges (c :: text) =
      if isOperation (c :: text) then .error .classOperation
      else Reader.bind (classRange flags) (fun more => next (ranges ++ more)) (c :: text) := by
  rw [itemsFrom]
  · exact nofun
  · exact fun rest same => closes (List.cons.inj same).1
  · exact fun rest same => opens (List.cons.inj same).1

theorem itemsFrom_congr {next other : List (Nat × Nat) → Reader (List (Nat × Nat))}
    {ranges : List (Nat × Nat)}
    (same : ∀ ranges rest, rest.length < text.length → next ranges rest = other ranges rest) :
    itemsFrom flags next ranges text = itemsFrom flags other ranges text := by
  cases text with
  | nil => rfl
  | cons c text =>
    by_cases closes : c = ']'
    · subst closes
      rfl
    by_cases opens : c = '['
    · subst opens
      rw [itemsFrom, itemsFrom]
      cases named : namedSet? ('[' :: text) with
      | none => rfl
      | some found => exact same _ _ (namedSet?_append named []).2
    · rw [itemsFrom_cons opens closes, itemsFrom_cons opens closes, Reader.bind, Reader.bind]
      cases read : classRange flags (c :: text) with
      | error fault => rfl
      | ok found =>
        have shorter := (isLocal_classRange_cons flags c _ _ _ read).length_le
        dsimp only
        rw [same _ _ (Nat.lt_succ_of_le shorter)]

theorem classItems_enough {count other : Nat} {ranges : List (Nat × Nat)}
    (enough : text.length < count) (enough' : text.length < other) :
    classItems flags count ranges text = classItems flags other ranges text := by
  induction count generalizing text other ranges with
  | zero => exact (Nat.not_lt_zero _ enough).elim
  | succ count ih =>
    cases other with
    | zero => exact (Nat.not_lt_zero _ enough').elim
    | succ other =>
      have shorter := flags.length_skip_le text
      rw [classItems_succ, classItems_succ]
      exact itemsFrom_congr fun ranges rest less => ih (by omega) (by omega)

theorem isLocal_itemsFrom {next : List (Nat × Nat) → Reader (List (Nat × Nat))}
    (reads : ∀ ranges, IsLocal (next ranges)) (ranges : List (Nat × Nat)) :
    IsLocal (itemsFrom flags next ranges) := by
  refine .of_cons (fun _ => nofun) fun c text item rest found => ?_
  by_cases closes : c = ']'
  · subst closes
    exact .cons (IsLocal.pure ranges _ _ _ found)
  by_cases opens : c = '['
  · subst opens
    rw [itemsFrom_bracket] at found
    exact (isLocal_setRead.bind (fun chars => reads (ranges ++ chars)) _ _ _ found).congr
      fun after => itemsFrom_bracket
  · rw [itemsFrom_cons opens closes] at found
    split at found
    case isTrue => cases found
    case isFalse plain =>
      cases text with
      | nil =>
        rw [Reader.bind] at found
        split at found
        case h_1 read => exact (classRange_single read).elim
        case h_2 => cases found
      | cons d text =>
        refine (((isLocal_classRange flags).bind fun more => reads (ranges ++ more)) _ _ _
          found).congr fun after => ?_
        rw [List.cons_append, itemsFrom_cons opens closes]
        exact if_neg plain

theorem isLocal_classItems (flags : Flags) (count : Nat) (ranges : List (Nat × Nat)) :
    IsLocal (classItems flags count ranges) := by
  induction count generalizing ranges with
  | zero => exact .fail _
  | succ count ih =>
    rw [show classItems flags (count + 1) ranges = _ from funext (classItems_succ flags count ranges)]
    exact (isLocal_itemsFrom ih ranges).skip flags

theorem leadingHyphens_eq (flags : Flags) (count : Nat) (text : List Char) :
    leadingHyphens flags count text =
      ((flags.front (· = '-') count text).1.flatMap fun _ => CharSet.single '-',
        (flags.front (· = '-') count text).2) := by
  fun_induction leadingHyphens flags count text with
  | case1 count rest ranges others read ih =>
    rw [Flags.front, if_pos (by rfl)]
    rw [read] at ih
    obtain ⟨rfl, rfl⟩ := Prod.mk.inj ih
    rfl
  | case2 count text other =>
    cases count with
    | zero => rfl
    | succ count =>
      cases text with
      | nil => rfl
      | cons c rest =>
        have plain : ¬decide (c = '-') = true := fun hyphen =>
          other count rest rfl (by rw [of_decide_eq_true hyphen])
        rw [Flags.front, if_neg plain]
        rfl

/-- Read the ranges of a class behind those at its front. -/
def classBody (flags : Flags) (first : List (Nat × Nat)) : Reader (List (Nat × Nat)) :=
  fun text => classItems flags (text.length + 1) first text

/-- Read the ranges of a class behind its hyphens, if there are any; a bracket behind none of them
stands for itself. -/
def classRanges (flags : Flags) : Reader (List (Nat × Nat)) :=
  Reader.bind (fun text => .ok (flags.front (· = '-') text.length text)) fun hyphens =>
    if hyphens = [] then
      Reader.past ']' (fun rest => classBody flags (CharSet.single ']') (flags.skip rest))
        (classBody flags [])
    else classBody flags (hyphens.flatMap fun _ => CharSet.single '-')

/-- The set of the ranges of a class. -/
def classChars (flags : Flags) (negated : Bool) (ranges : List (Nat × Nat)) :
    Except PatternFault CharSet :=
  let chars := CharSet.ofRanges ranges
  let chars := if flags.ignoreCase then CharSet.foldCase chars else chars
  .ok (if negated then CharSet.negate chars else chars)

/-- Read a class behind the sign that negates it. -/
def classSigned (flags : Flags) (negated : Bool) : Reader CharSet :=
  Reader.bind (classRanges flags) fun ranges rest => (classChars flags negated ranges).map (·, rest)

/-- A class with the hyphens at its front and the ranges behind them. -/
theorem classSigned_eq (flags : Flags) (negated : Bool) (text : List Char) :
    classSigned flags negated text =
      (let (hyphens, text) := leadingHyphens flags text.length text
       let (first, text) := match hyphens, text with
         | [], ']' :: rest => (CharSet.single ']', flags.skip rest)
         | _, _ => (hyphens, text)
       do
        let (ranges, rest) ← classItems flags (text.length + 1) first text
        let chars := CharSet.ofRanges ranges
        let chars := if flags.ignoreCase then CharSet.foldCase chars else chars
        return (if negated then CharSet.negate chars else chars, rest)) := by
  have body : ∀ first text, Reader.bind (classBody flags first) (fun ranges rest =>
      (classChars flags negated ranges).map (·, rest)) text = do
        let (ranges, rest) ← classItems flags (text.length + 1) first text
        let chars := CharSet.ofRanges ranges
        let chars := if flags.ignoreCase then CharSet.foldCase chars else chars
        return (if negated then CharSet.negate chars else chars, rest) := by
    intro first text
    rw [Reader.bind_eq]
    rfl
  rw [leadingHyphens_eq, classSigned, Reader.bind, classRanges, Reader.bind]
  generalize flags.front (· = '-') text.length text = front
  obtain ⟨hyphens, rest⟩ := front
  cases hyphens with
  | cons hyphen hyphens => exact body _ rest
  | nil =>
    by_cases bracket : ∃ others, rest = ']' :: others
    · obtain ⟨others, rfl⟩ := bracket
      exact body (CharSet.single ']') (flags.skip others)
    · have other : ∀ others, rest = ']' :: others → False := fun others same =>
        bracket ⟨others, same⟩
      have kept : (match ([] : List (Nat × Nat)), rest with
          | [], ']' :: others => (CharSet.single ']', flags.skip others)
          | _, _ => ([], rest)) = ([], rest) := by
        split
        case h_1 => exact (other _ rfl).elim
        case h_2 => rfl
      simp only [if_pos, List.flatMap_nil, Reader.past_of_ne other, kept]
      exact body [] rest

/-- Whether a class is negated, and the text behind the sign. -/
def classSign (flags : Flags) (text : List Char) : Bool × List Char :=
  match text with
  | '^' :: rest => (true, flags.skip rest)
  | _ => (false, text)

theorem classSet_eq (flags : Flags) (text : List Char) :
    classSet flags text =
      Reader.past '^' (fun rest => classSigned flags true (flags.skip rest))
        (classSigned flags false) (flags.skip text) := by
  have signed : classSet flags text = classSigned flags (classSign flags (flags.skip text)).1
      (classSign flags (flags.skip text)).2 := by
    rw [classSigned_eq]
    rfl
  rw [signed]
  unfold classSign
  split
  case h_1 same => rw [same, Reader.past_cons]
  case h_2 other => rw [Reader.past_of_ne other]

theorem isLocal_classBody (flags : Flags) (first : List (Nat × Nat)) :
    IsLocal (classBody flags first) :=
  IsLocal.of_enough (fun count => classItems flags count first) 1
    (fun _ _ enough => classItems_enough enough (Nat.lt_succ_self _))
    fun count => isLocal_classItems flags count first

theorem isLocal_classSigned (flags : Flags) (negated : Bool) :
    IsLocal (classSigned flags negated) := by
  have ranges : IsLocal (classRanges flags) := by
    refine (flags.isLocal_front (· = '-') rfl).bind fun hyphens => ?_
    split
    · exact .past (by decide) ((isLocal_classBody flags _).skip flags) (isLocal_classBody flags _)
    · exact isLocal_classBody flags _
  exact ranges.check (classChars flags negated)

/-- **The reader of classes.** -/
theorem isLocal_classSet (flags : Flags) : IsLocal (classSet flags) := by
  rw [show classSet flags = _ from funext (classSet_eq flags)]
  exact (IsLocal.past (by decide) ((isLocal_classSigned flags true).skip flags)
    (isLocal_classSigned flags false)).skip flags

end Pattern

end Gatehouse
