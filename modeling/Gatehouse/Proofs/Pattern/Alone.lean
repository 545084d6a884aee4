/-
**Patterns without what follows.**

What a reader finds before a closing parenthesis that it leaves, it finds without the parenthesis as
well: the converse of reading the same before a parenthesis. A few readers spare some of their items,
since they look at what follows them. An item of a class has to have something behind it, and behind
the test for a word boundary an opening brace may begin the name of a test. It is up to the next
reader then to refuse what it finds there.

* `Pattern.IsModestBut`: a reader that does not need what it leaves, but for the items it spares;
  `Pattern.IsModestBut.bind_of`, `Pattern.IsModestBut.past`, `Pattern.IsModestBut.of_enough`;
* `Pattern.escape_modest`: the reader of escapes;
* `Pattern.isModest_bounds`, `Pattern.isModest_opening`: the readers of the bounds of a repetition
  and of what a parenthesis begins.
-/

import Gatehouse.Proofs.Pattern.Reading

namespace Gatehouse

namespace Pattern

variable {α β : Type} {flags : Flags} {text rest after : List Char}

/-- A reader leaves the end of its text, and what it finds before a closing parenthesis that it
leaves, it finds without the parenthesis as well, but for the items it spares. -/
structure IsModestBut (spared : α → List Char → Prop) (read : Reader α) : Prop where
  leaves : ∀ {text item rest}, read text = .ok (item, rest) → rest <:+ text
  alone_or : ∀ {text after item rest},
    read (text ++ ')' :: after) = .ok (item, rest ++ ')' :: after) →
      read text = .ok (item, rest) ∨ spared item rest

/-- A reader that does not need what it leaves. -/
abbrev IsModest (read : Reader α) : Prop := IsModestBut (fun _ _ => False) read

namespace IsModestBut

theorem alone {read : Reader α} {item : α} (reads : IsModest read)
    (found : read (text ++ ')' :: after) = .ok (item, rest ++ ')' :: after)) :
    read text = .ok (item, rest) :=
  (reads.alone_or found).resolve_right id

theorem mono {spared spared' : α → List Char → Prop} {read : Reader α}
    (reads : IsModestBut spared read)
    (spares : ∀ {item rest}, spared item rest → spared' item rest) : IsModestBut spared' read :=
  ⟨reads.leaves, fun found => (reads.alone_or found).imp_right spares⟩

end IsModestBut

/-- Nothing leaves more than there is. -/
theorem not_suffix_after : ¬rest ++ ')' :: after <:+ after := by
  intro suffix
  have := suffix.length_le
  rw [List.length_append, List.length_cons] at this
  omega

/-! ### Blanks and comments -/

theorem skipSpace_suffix {inComment : Bool} : skipSpace inComment text <:+ text := by
  fun_induction skipSpace inComment text with
  | case1 => exact List.suffix_refl _
  | case2 c rest ih => exact ih.trans (List.suffix_cons c rest)
  | case3 c rest _ ih => exact ih.trans (List.suffix_cons c rest)
  | case4 rest _ ih => exact ih.trans (List.suffix_cons _ rest)
  | case5 => exact List.suffix_refl _

theorem Flags.skip_suffix (flags : Flags) (text : List Char) : flags.skip text <:+ text := by
  unfold skip
  split
  · exact skipSpace_suffix
  · exact List.suffix_refl _

theorem skipSpace_alone {inComment : Bool}
    (left : skipSpace inComment (text ++ ')' :: after) = rest ++ ')' :: after) :
    skipSpace inComment text = rest := by
  by_cases ended : skipSpace inComment text = []
  case neg =>
    rw [skipSpace_append ended] at left
    exact List.append_cancel_right left
  case pos =>
    -- a comment that goes on takes the parenthesis in
    obtain all | taken := skipSpace_before ended
    · rw [all after] at left
      exact ended.trans (List.self_eq_append_left.mp left).symm
    · fun_induction skipSpace inComment text with
      | case1 inComment =>
        cases inComment with
        | false => cases taken
        | true =>
          rw [List.nil_append, skipSpace] at left
          exact (not_suffix_after (left ▸ skipSpace_suffix)).elim
      | case2 c others ih => exact ih left ended taken
      | case3 c others blank ih =>
        rw [List.cons_append, skipSpace, if_pos blank] at left taken
        exact ih left ended taken
      | case4 others _ ih => exact ih left ended taken
      | case5 => exact (List.cons_ne_nil _ _ ended).elim

theorem Flags.skip_alone (left : flags.skip (text ++ ')' :: after) = rest ++ ')' :: after) :
    flags.skip text = rest := by
  unfold skip at left ⊢
  split
  case isTrue free =>
    rw [if_pos free] at left
    exact skipSpace_alone left
  case isFalse bound =>
    rw [if_neg bound] at left
    exact List.append_cancel_right left

/-! ### Readers together -/

namespace IsModestBut

/-- One reader after another. What the second one finds behind an item that the first one spares is
spared as well. -/
theorem bind_of {spared : α → List Char → Prop} {spared' : β → List Char → Prop}
    {read : Reader α} {next : α → Reader β} (first : IsModestBut spared read)
    (second : ∀ item, IsModestBut spared' (next item))
    (spares : ∀ {item rest after found left}, spared item rest →
      next item (rest ++ ')' :: after) = .ok (found, left ++ ')' :: after) → spared' found left) :
    IsModestBut spared' (Reader.bind read next) where
  leaves found := by
    obtain ⟨item, middle, reads, later⟩ := Reader.of_bind found
    exact ((second item).leaves later).trans (first.leaves reads)
  alone_or found := by
    obtain ⟨item, middle, reads, later⟩ := Reader.of_bind found
    obtain ⟨more, rfl⟩ := (second item).leaves later
    rw [← List.append_assoc] at reads later
    obtain read | refused := first.alone_or reads
    · rw [Reader.bind, read]
      exact (second item).alone_or later
    · exact .inr (spares refused later)

theorem of {read : Reader α}
    (leaves : ∀ {text item rest}, read text = .ok (item, rest) → rest <:+ text)
    (alone : ∀ {text after item rest},
      read (text ++ ')' :: after) = .ok (item, rest ++ ')' :: after) →
        read text = .ok (item, rest)) : IsModest read :=
  ⟨leaves, fun found => .inl (alone found)⟩

theorem pure (item : α) : IsModest fun text => .ok (item, text) := by
  refine of (fun found => ?_) fun found => ?_
  · cases found
    exact List.suffix_refl _
  · obtain ⟨rfl, same⟩ := Prod.mk.inj (Except.ok.inj found)
    rw [List.append_cancel_right same]

theorem fail (fault : PatternFault) : IsModest (α := α) (Reader.fail fault) :=
  ⟨nofun, nofun⟩

theorem bind {spared : β → List Char → Prop} {read : Reader α} {next : α → Reader β}
    (first : IsModest read) (second : ∀ item, IsModestBut spared (next item)) :
    IsModestBut spared (Reader.bind read next) :=
  first.bind_of second False.elim

theorem isModest_skip (flags : Flags) : IsModest fun text => .ok ((), flags.skip text) := by
  refine of (fun found => ?_) fun found => ?_
  · cases found
    exact flags.skip_suffix _
  · rw [Flags.skip_alone (Prod.mk.inj (Except.ok.inj found)).2]

theorem judged (judge : Except PatternFault β) : IsModest fun rest => judge.map (·, rest) := by
  cases judge with
  | ok item => exact .pure item
  | error fault => exact .fail fault

/-- A reader whose item is changed, or refused. -/
theorem check {read : Reader α} (reads : IsModest read) (judge : α → Except PatternFault β) :
    IsModest (Reader.bind read fun item rest => (judge item).map (·, rest)) :=
  reads.bind fun item => judged (judge item)

/-- A reader that begins behind blanks and comments. -/
theorem skip {spared : α → List Char → Prop} {read : Reader α} (flags : Flags)
    (reads : IsModestBut spared read) : IsModestBut spared fun text => read (flags.skip text) :=
  (IsModestBut.isModest_skip flags).bind fun _ => reads

/-- A reader that needs a character. -/
theorem of_cons {spared : α → List Char → Prop} {read : Reader α}
    (atEnd : ∀ found, read [] ≠ .ok found)
    (onward : ∀ c, IsModestBut spared fun text => read (c :: text)) : IsModestBut spared read where
  leaves {text item rest} found := by
    cases text with
    | nil => exact (atEnd _ found).elim
    | cons c text => exact ((onward c).leaves found).trans (List.suffix_cons c text)
  alone_or {text after item rest} found := by
    cases text with
    | nil => exact (not_suffix_after ((onward ')').leaves found)).elim
    | cons c text => exact (onward c).alone_or found

/-- A reader that finds nothing in an empty text, leaves a closing parenthesis alone, and takes a
character or leaves it alone. -/
theorem of_nil {read : Reader α} {item : α} (atEnd : read [] = .ok (item, []))
    (closing : ∀ after, read (')' :: after) = .ok (item, ')' :: after))
    (onward : ∀ c, (IsModest fun text => read (c :: text)) ∨
      ∀ text, read (c :: text) = .ok (item, c :: text)) : IsModest read := by
  refine of (fun {text _ _} found => ?_) fun {text _ _ _} found => ?_
  · cases text with
    | nil =>
      obtain ⟨-, rfl⟩ := Prod.mk.inj (Except.ok.inj (atEnd.symm.trans found))
      exact List.suffix_refl _
    | cons c text =>
      obtain takes | leaves := onward c
      · exact (takes.leaves found).trans (List.suffix_cons c text)
      · obtain ⟨-, rfl⟩ := Prod.mk.inj (Except.ok.inj ((leaves text).symm.trans found))
        exact List.suffix_refl _
  · cases text with
    | nil =>
      obtain ⟨rfl, same⟩ := Prod.mk.inj (Except.ok.inj ((closing _).symm.trans found))
      rw [atEnd, List.self_eq_append_left.mp same]
    | cons c text =>
      obtain takes | leaves := onward c
      · exact takes.alone found
      · obtain ⟨rfl, same⟩ := Prod.mk.inj (Except.ok.inj ((leaves _).symm.trans found))
        rw [leaves, ← List.append_cancel_right (show c :: text ++ _ = _ from same)]

/-- A reader that does different things past a character and without it. -/
theorem past {c : Char} {here otherwise : Reader α} (apart : ')' ≠ c) (inside : IsModest here)
    (without : IsModest otherwise) : IsModest (Reader.past c here otherwise) := by
  refine of (fun {text _ _} found => ?_) fun {text _ _ _} found => ?_
  · cases text with
    | nil => exact without.leaves found
    | cons d text =>
      rw [Reader.past] at found
      split at found
      case isTrue => exact (inside.leaves found).trans (List.suffix_cons d text)
      case isFalse => exact without.leaves found
  · cases text with
    | nil =>
      rw [List.nil_append, Reader.past, if_neg apart] at found
      exact without.alone (show otherwise ([] ++ _) = _ from found)
    | cons d text =>
      rw [List.cons_append, Reader.past] at found
      rw [Reader.past]
      split
      case isTrue same => rw [if_pos same] at found; exact inside.alone found
      case isFalse other => rw [if_neg other] at found; exact without.alone found

/-- A reader with a bound on its work that the length of the text suffices for. -/
theorem of_enough (read : Nat → Reader α) (extra : Nat)
    (enough : ∀ count text, text.length + extra ≤ count →
      read count text = read (text.length + extra) text)
    (reads : ∀ count, IsModest (read count)) :
    IsModest fun text => read (text.length + extra) text := by
  refine of (fun found => (reads _).leaves found) fun {text after _ _} found => ?_
  rw [← enough ((text ++ ')' :: after).length + extra) text
    (by rw [List.length_append]; omega)]
  exact (reads _).alone found

end IsModestBut

theorem Flags.isModest_front (flags : Flags) (accepts : Char → Bool)
    (refused : accepts ')' = false) :
    IsModest fun text => .ok (flags.front accepts text.length text) := by
  refine IsModestBut.of_enough (fun count text => .ok (flags.front accepts count text)) 0
    (fun count text enough => congrArg Except.ok (front_enough enough (Nat.le_refl _)))
    fun count => ?_
  induction count with
  | zero => exact .pure []
  | succ count ih =>
    have kept : ∀ {c}, accepts c = false → ∀ text,
        Except.ok (flags.front accepts (count + 1) (c :: text)) =
          (.ok ([], c :: text) : Except PatternFault _) := by
      intro c refused text
      rw [front, if_neg (by rw [refused]; exact Bool.false_ne_true)]
    refine .of_nil rfl (kept refused) fun c => ?_
    cases accepted : accepts c with
    | false => exact .inr (kept accepted)
    | true =>
      left
      simp only [front, if_pos accepted]
      exact (ih.skip flags).check fun taken => .ok (c :: taken)

/-! ### Escapes -/

theorem isModest_ofNumber (flags : Flags) (value : Nat) : IsModest (flags.ofNumber value) := by
  unfold Flags.ofNumber
  cases charOf? value with
  | none => exact .fail _
  | some c => exact .pure _

theorem isModest_hexDigits (flags : Flags) (count value : Nat) :
    IsModest (hexDigits flags count value) := by
  induction count generalizing value with
  | zero => exact .pure value
  | succ count ih =>
    refine .of_cons (fun _ => nofun) fun c => ?_
    simp only [hexDigits]
    cases hexDigit? c with
    | none => exact .fail _
    | some digit => exact (ih _).skip flags

theorem isModest_hexUntilBrace (flags : Flags) (count : Nat) (digits : List Nat) :
    IsModest (hexUntilBrace flags count digits) := by
  induction count generalizing digits with
  | zero => exact .fail _
  | succ count ih =>
    refine .of_cons (fun _ => nofun) fun c => ?_
    simp only [hexUntilBrace]
    split
    case isTrue =>
      split
      case isTrue => exact .fail _
      case isFalse => exact (IsModestBut.pure _).skip flags
    case isFalse =>
      cases hexDigit? c with
      | none => exact .fail _
      | some digit => exact (ih _).skip flags

theorem isModest_hexEscape (flags : Flags) (count : Nat) :
    IsModest (hexEscape flags count) := by
  rw [show hexEscape flags count = _ from funext (hexEscape_eq flags count)]
  have braced := IsModestBut.of_enough (fun count => hexUntilBrace flags count []) 1
    (fun count text enough => hexUntilBrace_enough enough (Nat.lt_succ_self _))
    fun count => isModest_hexUntilBrace flags count []
  refine (IsModestBut.past (by decide) ?_ ?_).skip flags
  · exact (braced.bind (isModest_ofNumber flags)).skip flags
  · exact (isModest_hexDigits flags count 0).bind (isModest_ofNumber flags)

theorem isModest_boundaryTest (flags : Flags) : IsModest (boundaryTest flags) := by
  refine (flags.isModest_front isBoundaryChar rfl).bind fun name => ?_
  exact .past (by decide) (.judged _) (.fail _)

/-- A brace that nothing but blanks and comments follows. -/
def AtBrace (flags : Flags) (rest : List Char) : Prop :=
  ∃ blank, rest = '{' :: blank ∧ flags.skip blank = []

/-- The items of escapes that are spared: a test for a word boundary before a brace at the end. -/
def SparedTest (flags : Flags) (atom : Atom) (rest : List Char) : Prop :=
  atom = .look .wordBoundary ∧ AtBrace flags rest

theorem boundaryEscape_plain {c : Char} (plain : c ≠ '{') (text : List Char) :
    boundaryEscape flags (c :: text) = .ok (.look .wordBoundary, c :: text) := by
  rw [boundaryEscape]
  exact fun rest same => plain (List.cons.inj same).1

theorem boundaryEscape_leaves {atom : Atom}
    (found : boundaryEscape flags text = .ok (atom, rest)) : rest <:+ text := by
  cases text with
  | nil => cases found; exact List.suffix_refl _
  | cons c text =>
    by_cases brace : c = '{'
    case neg =>
      rw [boundaryEscape_plain brace] at found
      cases found
      exact List.suffix_refl _
    case pos =>
      subst brace
      cases inside : flags.skip text with
      | nil => simp only [boundaryEscape, inside, reduceCtorEq] at found
      | cons d others =>
        by_cases accepted : isBoundaryChar d = true
        · rw [boundaryEscape_named inside accepted] at found
          exact (((isModest_boundaryTest flags).skip flags).leaves found).trans
            (List.suffix_cons _ _)
        · rw [boundaryEscape_unnamed inside accepted] at found
          cases found
          exact List.suffix_refl _

theorem boundaryEscape_alone {atom : Atom}
    (found : boundaryEscape flags (text ++ ')' :: after) = .ok (atom, rest ++ ')' :: after)) :
    boundaryEscape flags text = .ok (atom, rest) ∨ SparedTest flags atom rest := by
  -- where the text is left as it is, the brace is what follows it
  have untouched : boundaryEscape flags (text ++ ')' :: after) =
      .ok (.look .wordBoundary, text ++ ')' :: after) → atom = .look .wordBoundary ∧ rest = text := by
    intro plain
    obtain ⟨rfl, same⟩ := Prod.mk.inj (Except.ok.inj (found.symm.trans plain))
    exact ⟨rfl, List.append_cancel_right same⟩
  cases text with
  | nil =>
    obtain ⟨rfl, rfl⟩ := untouched (boundaryEscape_plain (by decide) _)
    exact .inl rfl
  | cons c text =>
    by_cases brace : c = '{'
    case neg =>
      obtain ⟨rfl, rfl⟩ := untouched (boundaryEscape_plain brace _)
      exact .inl (boundaryEscape_plain brace text)
    case pos =>
      subst brace
      have named : ∀ {d others}, flags.skip (text ++ ')' :: after) = d :: others →
          isBoundaryChar d = true → boundaryTest flags (flags.skip text) = .ok (atom, rest) := by
        intro d others longer accepted
        rw [List.cons_append, boundaryEscape_named longer accepted] at found
        exact ((isModest_boundaryTest flags).skip flags).alone found
      cases inside : flags.skip text with
      | cons d others =>
        have longer : flags.skip (text ++ ')' :: after) = d :: (others ++ ')' :: after) := by
          rw [Flags.skip_append (by rw [inside]; exact List.cons_ne_nil _ _), inside,
            List.cons_append]
        left
        by_cases accepted : isBoundaryChar d = true
        · rw [boundaryEscape_named inside accepted]
          exact named longer accepted
        · obtain ⟨rfl, rfl⟩ := untouched (boundaryEscape_unnamed longer accepted)
          exact boundaryEscape_unnamed inside accepted
      | nil =>
        cases longer : flags.skip (text ++ ')' :: after) with
        | nil => simp only [List.cons_append, boundaryEscape, longer, reduceCtorEq] at found
        | cons d others =>
          by_cases accepted : isBoundaryChar d = true
          · have tested := named longer accepted
            rw [inside] at tested
            cases tested
          · obtain ⟨rfl, rfl⟩ := untouched (boundaryEscape_unnamed longer accepted)
            exact .inr ⟨rfl, text, rfl, inside⟩

/-- **The reader of escapes**, but for a test for a word boundary. -/
theorem escape_modest (flags : Flags) : IsModestBut (SparedTest flags) (escape flags) := by
  refine .of_cons (fun _ => nofun) fun c => ⟨fun {text _ _} found => ?_, fun {text _ _ _} found => ?_⟩
  · unfold escape at found
    dsimp only at found
    split at found
    case h_1 | h_2 | h_3 => exact (isModest_hexEscape flags _).leaves found
    case h_18 => exact boundaryEscape_leaves found
    case h_22 =>
      split at found
      case isTrue => cases found
      case isFalse =>
        split at found
        case isFalse => cases found
        case isTrue => exact (IsModestBut.pure _).leaves found
    all_goals exact (IsModestBut.pure _).leaves found
  · unfold escape at found
    dsimp only at found
    split at found
    case h_1 => exact .inl ((isModest_hexEscape flags 2).alone found)
    case h_2 => exact .inl ((isModest_hexEscape flags 4).alone found)
    case h_3 => exact .inl ((isModest_hexEscape flags 8).alone found)
    case h_18 => exact boundaryEscape_alone found
    case h_22 =>
      -- no letter with a meaning: a character that an escape makes ordinary
      left
      rw [escape] <;> try assumption
      split at found
      case isTrue => cases found
      case isFalse letter =>
        rw [if_neg letter]
        split at found
        case isFalse => cases found
        case isTrue escapable =>
          rw [if_pos escapable]
          exact (IsModestBut.pure _).alone found
    all_goals exact .inl ((IsModestBut.pure _).alone found)

/-! ### Repetitions -/

theorem isModest_dropBlanks : IsModest fun text => .ok ((), text.dropWhile Text.isBlank) := by
  refine .of (fun found => ?_) fun {text _ _ rest} found => ?_
  · cases found
    exact List.dropWhile_suffix _
  · have left := (Prod.mk.inj (Except.ok.inj found)).2
    rw [List.dropWhile_append] at left
    split at left
    case isTrue empty =>
      rw [List.isEmpty_iff.mp empty, List.self_eq_append_left.mp left]
    case isFalse => rw [List.append_cancel_right left]

theorem isModest_skipBlanks (flags : Flags) :
    IsModest fun text => .ok ((), skipBlanks flags text) := by
  refine .of_nil rfl (fun after => ?_) fun c => ?_
  · rw [skipBlanks_cons, if_neg (by decide)]
  by_cases blank : Text.isBlank c = true
  · simp only [skipBlanks_cons, if_pos blank]
    exact .inl (isModest_dropBlanks.bind fun _ => IsModestBut.isModest_skip flags)
  · exact .inr fun text => by rw [skipBlanks_cons, if_neg blank]

theorem isModest_decimal (flags : Flags) : IsModest (decimal flags) := by
  rw [show decimal flags = _ from funext (decimal_eq flags)]
  have number : IsModest (number flags) :=
    (flags.isModest_front Char.isDigit rfl).bind fun _ => (isModest_skipBlanks flags).bind fun _ =>
      .judged _
  exact isModest_dropBlanks.bind fun _ => number

theorem isModest_skipLazy : IsModest fun text => .ok ((), skipLazy text) := by
  refine .of_nil rfl (fun _ => rfl) fun c => ?_
  by_cases mark : c = '?'
  · subst mark
    exact .inl (.pure ())
  · right
    intro text
    rw [skipLazy]
    exact fun rest same => mark (List.cons.inj same).1

theorem isModest_boundsEnd (flags : Flags) (range : Nat × Option Nat) :
    IsModest (boundsEnd flags range) :=
  ((IsModestBut.isModest_skip flags).bind fun _ => isModest_skipLazy).check fun _ => .ok range

/-- **The reader of the bounds of a repetition.** -/
theorem isModest_bounds (flags : Flags) : IsModest (bounds flags) := by
  have most : ∀ least, IsModest (boundsMost flags least) := by
    refine fun least => (isModest_decimal flags).bind fun most => .past (by decide) ?_ (.fail _)
    split
    · exact .fail _
    · exact isModest_boundsEnd flags _
  have rest : ∀ least, IsModest (boundsRest flags least) := by
    refine fun least => .past (by decide) (isModest_boundsEnd flags _)
      (.past (by decide) ?_ (.fail _))
    exact (IsModestBut.past (by decide) (isModest_boundsEnd flags _) (most least)).skip flags
  rw [show bounds flags = _ from funext (bounds_eq flags)]
  exact ((isModest_decimal flags).bind rest).skip flags

/-! ### Groups -/

/-- What shortens its text does not leave a closing parenthesis with something before it. -/
theorem ne_ok_of_closing {read : Reader α} {item : α}
    (shorter : ∀ {text item rest}, read text = .ok (item, rest) → rest.length < text.length) :
    read (')' :: after) ≠ .ok (item, rest ++ ')' :: after) := by
  intro found
  have := shorter found
  rw [List.length_append] at this
  omega

theorem flagLetters_closing (read : FlagLetters) :
    flagLetters (')' :: after) read = .ok (read.flags, ')' :: after) := by
  unfold flagLetters
  exact if_pos rfl

/-- The letters of flags, but for those that nothing follows. -/
theorem flagLetters_modest (read : FlagLetters) :
    IsModestBut (fun _ rest => rest = []) fun text => flagLetters text read := by
  refine ⟨fun {text _ rest} found => ?_, fun {text after _ rest} found => ?_⟩
  · fun_induction flagLetters text read with
    | case2 => cases found; exact List.suffix_refl _
    | case4 _ _ _ _ _ ih => exact (ih found).trans (List.suffix_cons ..)
    | case6 _ _ _ _ _ _ _ _ ih => exact (ih found).trans (List.suffix_cons ..)
    | case1 | case3 | case5 | case7 => cases found
  · induction text generalizing read with
    | nil =>
      obtain ⟨-, same⟩ := Prod.mk.inj (Except.ok.inj ((flagLetters_closing read).symm.trans found))
      exact .inr (List.self_eq_append_left.mp same)
    | cons c others ih =>
      simp only [List.cons_append, flagLetters] at found ⊢
      by_cases ends : (decide (c = ':') || decide (c = ')')) = true
      · rw [if_pos ends] at found ⊢
        obtain ⟨rfl, same⟩ := Prod.mk.inj (Except.ok.inj found)
        exact .inl (by rw [← List.append_cancel_right (show c :: others ++ _ = _ from same)])
      rw [if_neg ends] at found ⊢
      by_cases hyphen : c = '-'
      · rw [if_pos hyphen] at found ⊢
        cases others with
        | nil =>
          simp only [List.nil_append, decide_true, Bool.or_true, if_true, reduceCtorEq] at found
        | cons next others =>
          simp only [List.cons_append] at found ⊢
          split at found
          case isTrue => cases found
          case isFalse valid => rw [if_neg valid]; exact ih _ found
      · rw [if_neg hyphen] at found ⊢
        split at found
        case h_1 =>
          split at found
          case isTrue => cases found
          case isFalse fresh => rw [if_neg fresh]; exact ih _ found
        case h_2 => cases found

/-- Read the sign behind the letters of flags; without any letters a closing parenthesis is none. -/
def flagsEnd (bare : Bool) (chosen : Flags) : Reader Opening
  | [] => .error .flags
  | c :: rest =>
    if c = ':' then .ok (.plain chosen, rest)
    else if bare then .error .flags else .ok (.flags chosen, rest)

theorem flagsGroup_eq (flags : Flags) (text : List Char) :
    flagsGroup flags text = Reader.bind (fun text => flagLetters text ⟨flags, false, []⟩)
      (flagsEnd (text.head? = some ')')) text := by
  rw [flagsGroup, Reader.bind_eq]
  refine congrArg _ (funext fun found => ?_)
  obtain ⟨chosen, rest⟩ := found
  dsimp only
  split
  case h_1 => rfl
  case h_2 other =>
    rw [flagsEnd, if_neg fun same => other same]
    simp only [decide_eq_true_eq]
    split <;> rfl
  case h_3 => rfl

theorem isModest_flagsEnd (bare : Bool) (chosen : Flags) : IsModest (flagsEnd bare chosen) := by
  refine .of_cons (fun _ => nofun) fun c => ?_
  simp only [flagsEnd]
  split
  · exact .pure _
  · split
    · exact .fail _
    · exact .pure _

theorem flagsEnd_shorter {bare : Bool} {chosen : Flags} {opened : Opening}
    (found : flagsEnd bare chosen text = .ok (opened, rest)) : rest.length < text.length := by
  cases text with
  | nil => exact nomatch found
  | cons c text =>
    rw [flagsEnd] at found
    split at found
    · cases found; exact Nat.lt_succ_self _
    · split at found
      · exact nomatch found
      · cases found; exact Nat.lt_succ_self _

theorem isModest_flagsGroup (flags : Flags) : IsModest (flagsGroup flags) := by
  have marked : ∀ bare, IsModest (Reader.bind (fun text => flagLetters text ⟨flags, false, []⟩)
      (flagsEnd bare)) := fun bare =>
    (flagLetters_modest _).bind_of (isModest_flagsEnd bare) fun empty found => by
      subst empty
      exact ne_ok_of_closing flagsEnd_shorter found
  refine .of (fun found => ?_) fun {text after _ _} found => ?_
  · rw [flagsGroup_eq] at found
    exact (marked _).leaves found
  · rw [flagsGroup_eq] at found ⊢
    cases text with
    | cons c text => exact (marked _).alone found
    | nil =>
      rw [List.nil_append, Reader.bind, flagLetters_closing] at found
      cases found

theorem groupName_eq_ok_iff {name : List Char} :
    groupName text = .ok (name, rest) ↔ text = name ++ '>' :: rest ∧ '>' ∉ name ∧
      ∃ first others, name = first :: others ∧
        (isNameChar true first && others.all (isNameChar false)) = true := by
  unfold groupName
  constructor
  · intro found
    split at found
    case h_2 => exact nomatch found
    case h_1 first others left split =>
      split at found
      case isFalse => exact nomatch found
      case isTrue valid =>
        obtain ⟨rfl, rfl⟩ := Prod.mk.inj (Except.ok.inj found)
        obtain ⟨same, absent⟩ := Text.splitFirst?_eq_some_iff.mp split
        exact ⟨same, absent, first, others, rfl, valid⟩
  · rintro ⟨same, absent, first, others, rfl, valid⟩
    rw [Text.splitFirst?_eq_some_iff.mpr ⟨same, absent⟩]
    exact if_pos valid

theorem isModest_groupName : IsModest groupName := by
  refine .of (fun found => ?_) fun {text after name rest} found => ?_
  · obtain ⟨rfl, -⟩ := groupName_eq_ok_iff.mp found
    exact (List.suffix_cons _ _).trans (List.suffix_append _ _)
  · obtain ⟨same, valid⟩ := groupName_eq_ok_iff.mp found
    have same : text ++ ')' :: after = name ++ '>' :: rest ++ ')' :: after := by
      rw [same, List.append_assoc, List.cons_append]
    exact groupName_eq_ok_iff.mpr ⟨List.append_cancel_right same, valid⟩

/-- **The reader of what a parenthesis begins.** -/
theorem isModest_opening (flags : Flags) : IsModest (opening flags) := by
  have named : IsModest namedGroup :=
    isModest_groupName.check fun name => .ok (Opening.capture (some name))
  have question : IsModest (questionGroup flags) :=
    .past (by decide) (.fail _) <| .past (by decide) (.fail _) <|
      .past (by decide) (.past (by decide) (.fail _) (.past (by decide) (.fail _) named)) <|
      .past (by decide) (.past (by decide) named (.fail _)) (isModest_flagsGroup flags)
  rw [show opening flags = _ from funext (opening_eq flags)]
  exact (IsModestBut.past (by decide) question (.pure _)).skip flags

end Pattern

end Gatehouse
