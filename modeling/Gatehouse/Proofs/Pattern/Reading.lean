/-
**Reading escapes, repetitions and groups.**

What follows a backslash, an opening brace and an opening parenthesis is read as it is read before a
closing parenthesis.

* **`Pattern.isLocal_escape`**: the reader of escapes;
* **`Pattern.isLocal_bounds`**: the reader of the bounds of a repetition;
  `Pattern.le_of_bounds`: they are in order;
* **`Pattern.isLocal_opening`**: the reader of what a parenthesis begins.
-/

import Gatehouse.Pattern.Group
import Gatehouse.Proofs.Pattern.Readers

namespace Gatehouse

namespace Pattern

variable {flags : Flags} {text rest : List Char}

/-! ### Escapes -/

theorem boundaryName_eq (flags : Flags) (count : Nat) (text : List Char) :
    boundaryName flags count text = flags.front (fun c => c.isAlpha || c = '-') count text := by
  fun_induction boundaryName flags count text with
  | case1 text => rfl
  | case2 count => cases count <;> rfl
  | case3 count c rest accepted name others read ih =>
    rw [Flags.front, if_pos accepted, ← ih, read]
  | case4 count c rest refused => rw [Flags.front, if_neg refused]

theorem isLocal_ofNumber (flags : Flags) (value : Nat) : IsLocal (flags.ofNumber value) := by
  unfold Flags.ofNumber
  cases charOf? value with
  | none => exact .fail _
  | some c => exact .pure _

theorem isLocal_hexDigits (flags : Flags) (count value : Nat) :
    IsLocal (hexDigits flags count value) := by
  induction count generalizing value with
  | zero => exact .pure value
  | succ count ih =>
    refine .of_cons (fun _ => nofun) fun c text item rest found => .cons ?_
    cases digit : hexDigit? c with
    | none => simp only [hexDigits, digit, reduceCtorEq] at found
    | some digit =>
      simp only [hexDigits, digit] at found ⊢
      exact (ih _).skip flags _ _ _ found

theorem hexUntilBrace_enough {count other : Nat} {digits : List Nat} (enough : text.length < count)
    (enough' : text.length < other) :
    hexUntilBrace flags count digits text = hexUntilBrace flags other digits text := by
  induction count generalizing text other digits with
  | zero => exact (Nat.not_lt_zero _ enough).elim
  | succ count ih =>
    match text, other with
    | [], other + 1 => rfl
    | c :: rest, other + 1 =>
      have shorter := flags.length_skip_le rest
      rw [List.length_cons] at enough enough'
      have same := fun digits => @ih (flags.skip rest) other digits (by omega) (by omega)
      simp only [hexUntilBrace, same]

theorem isLocal_hexUntilBrace (flags : Flags) (count : Nat) (digits : List Nat) :
    IsLocal (hexUntilBrace flags count digits) := by
  induction count generalizing digits with
  | zero => exact .fail _
  | succ count ih =>
    refine .of_cons (fun _ => nofun) fun c text item rest found => .cons ?_
    by_cases brace : c = '}'
    · simp only [hexUntilBrace, if_pos brace] at found ⊢
      split at found
      case isTrue => exact nomatch found
      case isFalse valid =>
        simp only [if_neg valid]
        exact (IsLocal.pure _).skip flags _ _ _ found
    · cases digit : hexDigit? c with
      | none => simp only [hexUntilBrace, if_neg brace, digit, reduceCtorEq] at found
      | some digit =>
        simp only [hexUntilBrace, if_neg brace, digit] at found ⊢
        exact (ih _).skip flags _ _ _ found

theorem hexEscape_eq (flags : Flags) (count : Nat) (text : List Char) :
    hexEscape flags count text = Reader.past '{'
      (fun rest => Reader.bind (fun text => hexUntilBrace flags (text.length + 1) [] text)
        flags.ofNumber (flags.skip rest))
      (Reader.bind (hexDigits flags count 0) flags.ofNumber) (flags.skip text) := by
  unfold hexEscape
  split
  case h_1 rest same => rw [same, Reader.past_cons, Reader.bind_eq]
  case h_2 other => rw [Reader.past_of_ne other, Reader.bind_eq]

theorem isLocal_hexEscape (flags : Flags) (count : Nat) :
    IsLocal (hexEscape flags (count + 1)) := by
  rw [show hexEscape flags (count + 1) = _ from funext (hexEscape_eq flags (count + 1))]
  have braced := IsLocal.of_enough (fun count => hexUntilBrace flags count []) 1
    (fun count text enough => hexUntilBrace_enough enough (Nat.lt_succ_self _))
    fun count => isLocal_hexUntilBrace flags count []
  refine (IsLocal.past (by decide) ?_ ?_).skip flags
  · exact (braced.bind (isLocal_ofNumber flags)).skip flags
  · exact (isLocal_hexDigits flags (count + 1) 0).bind (isLocal_ofNumber flags)

/-- Whether a character may stand in the name of a word test. -/
def isBoundaryChar (c : Char) : Bool := c.isAlpha || c = '-'

/-- The word test with a name, if there is one. -/
def boundaryNamed (name : List Char) : Except PatternFault Atom :=
  match boundary? name with
  | some test => .ok (.look test)
  | none => .error .escape

/-- Read the name of a word test up to its closing brace. -/
def boundaryTest (flags : Flags) : Reader Atom :=
  Reader.bind (fun text => .ok (flags.front isBoundaryChar text.length text)) fun name =>
    Reader.past '}' (fun rest => (boundaryNamed name).map (·, rest)) (Reader.fail .escape)

theorem isLocal_boundaryTest (flags : Flags) : IsLocal (boundaryTest flags) := by
  refine (flags.isLocal_front isBoundaryChar rfl).bind fun name => ?_
  exact .past (by decide) ((IsLocal.pure name).check boundaryNamed) (.fail _)

theorem boundaryEscape_named {c : Char} {others : List Char}
    (inside : flags.skip text = c :: others) (accepted : isBoundaryChar c = true) :
    boundaryEscape flags ('{' :: text) = boundaryTest flags (flags.skip text) := by
  have accepted : (c.isAlpha || c = '-') = true := accepted
  simp only [boundaryEscape, inside, if_pos accepted, boundaryName_eq, boundaryTest, Reader.bind]
  unfold isBoundaryChar
  split
  case h_1 name rest same =>
    rw [same, Reader.past_cons, boundaryNamed]
    dsimp only
    cases boundary? name <;> rfl
  case h_2 other => rw [Reader.past_of_ne fun rest same => other _ rest (Prod.ext rfl same)]; rfl

theorem boundaryEscape_unnamed {c : Char} {others : List Char}
    (inside : flags.skip text = c :: others) (refused : ¬isBoundaryChar c = true) :
    boundaryEscape flags ('{' :: text) = .ok (.look .wordBoundary, '{' :: text) := by
  simp only [boundaryEscape, inside]
  exact if_neg refused

theorem isLocal_boundaryEscape (flags : Flags) : IsLocal (boundaryEscape flags) := by
  refine .of_nil rfl (fun _ => rfl) fun c text item rest found => ?_
  by_cases brace : c = '{'
  case neg =>
    have plain : ∀ text, boundaryEscape flags (c :: text) =
        .ok (.look .wordBoundary, c :: text) := by
      intro text
      rw [boundaryEscape]
      exact fun rest same => brace (List.cons.inj same).1
    obtain ⟨rfl, rfl⟩ := Prod.mk.inj (Except.ok.inj ((plain text).symm.trans found))
    exact .of_append (Nat.le_refl _) fun after => plain (text ++ after)
  case pos =>
    subst brace
    cases inside : flags.skip text with
    | nil => simp only [boundaryEscape, inside, reduceCtorEq] at found
    | cons d others =>
      have longer : ∀ after, flags.skip (text ++ after) = d :: (others ++ after) := by
        intro after
        rw [Flags.skip_append (by rw [inside]; exact List.cons_ne_nil _ _), inside, List.cons_append]
      by_cases accepted : isBoundaryChar d = true
      · have same := (boundaryEscape_named inside accepted).symm.trans found
        exact .cons (((isLocal_boundaryTest flags).skip flags _ _ _ same).congr fun after =>
          boundaryEscape_named (longer after) accepted)
      · have same := (boundaryEscape_unnamed inside accepted).symm.trans found
        obtain ⟨rfl, rfl⟩ := Prod.mk.inj (Except.ok.inj same)
        exact .of_append (Nat.le_refl _) fun after =>
          boundaryEscape_unnamed (longer after) accepted

/-- **The reader of escapes.** -/
theorem isLocal_escape (flags : Flags) : IsLocal (escape flags) := by
  refine .of_cons (fun _ => nofun) fun c text item rest found => .cons ?_
  unfold escape at found
  dsimp only at found
  split at found
  case h_1 => exact isLocal_hexEscape flags 1 _ _ _ found
  case h_2 => exact isLocal_hexEscape flags 3 _ _ _ found
  case h_3 => exact isLocal_hexEscape flags 7 _ _ _ found
  case h_18 => exact isLocal_boundaryEscape flags _ _ _ found
  case h_22 =>
    -- no letter with a meaning: a character that an escape makes ordinary
    have ordinary : ∀ after, escape flags (c :: after) =
        if c.isDigit then .error .backReference
        else if isEscapable c then .ok (flags.atom c, after) else .error .escape := by
      intro after
      rw [escape] <;> assumption
    split at found
    case isTrue => exact nomatch found
    case isFalse letter =>
      split at found
      case isFalse => exact nomatch found
      case isTrue escapable =>
        obtain ⟨rfl, rfl⟩ := Prod.mk.inj (Except.ok.inj found)
        refine .of_append (Nat.le_refl _) fun after => ?_
        rw [ordinary, if_neg letter, if_pos escapable]
  all_goals exact IsLocal.pure _ _ _ _ found

/-! ### Repetitions -/

theorem digitsOf_eq (flags : Flags) (count : Nat) (text : List Char) :
    digitsOf flags count text =
      ((flags.front Char.isDigit count text).1.map (·.toNat - 48),
        (flags.front Char.isDigit count text).2) := by
  fun_induction digitsOf flags count text with
  | case1 count c rest digit digits others read ih =>
    rw [Flags.front, if_pos digit]
    rw [read] at ih
    obtain ⟨rfl, rfl⟩ := Prod.mk.inj ih
    rfl
  | case2 count c rest other => rw [Flags.front, if_neg other, List.map_nil]
  | case3 count text atEnd =>
    cases count with
    | zero => rfl
    | succ count =>
      cases text with
      | nil => rfl
      | cons c rest => exact (atEnd _ _ _ rfl rfl).elim

theorem isLocal_dropBlanks : IsLocal fun text => .ok ((), text.dropWhile Text.isBlank) := by
  rintro text ⟨⟩ rest found
  obtain rfl : text.dropWhile Text.isBlank = rest := congrArg Prod.snd (Except.ok.inj found)
  refine ⟨rfl, (List.dropWhile_suffix _).length_le, .inl fun after => ?_⟩
  rw [List.dropWhile_append]
  split
  case isTrue empty => rw [List.isEmpty_iff.mp empty]; rfl
  case isFalse => rfl

theorem skipBlanks_cons (flags : Flags) (c : Char) (rest : List Char) :
    skipBlanks flags (c :: rest) =
      if Text.isBlank c then flags.skip (rest.dropWhile Text.isBlank) else c :: rest := by
  have shorter := (List.dropWhile_suffix (l := rest) Text.isBlank).length_le
  by_cases blank : Text.isBlank c = true
  · rw [skipBlanks, List.dropWhile_cons_of_pos blank, if_pos blank]
    split
    case h_1 empty => rw [empty, Flags.skip_nil]
    case h_2 => exact if_pos (Nat.lt_succ_of_le shorter)
  · rw [skipBlanks, List.dropWhile_cons_of_neg blank, if_neg blank]
    exact if_neg (Nat.lt_irrefl _)

theorem isLocal_skipBlanks (flags : Flags) : IsLocal fun text => .ok ((), skipBlanks flags text) := by
  refine .of_nil rfl (fun after => ?_) fun c text item rest found => ?_
  · rw [skipBlanks_cons, if_neg (by decide)]
  by_cases blank : Text.isBlank c = true
  · refine .cons ?_
    simp only [skipBlanks_cons, if_pos blank] at found ⊢
    exact (isLocal_dropBlanks.bind fun _ => flags.isLocal_skip) _ _ _ found
  · rw [skipBlanks_cons, if_neg blank] at found
    obtain ⟨rfl, rfl⟩ := Prod.mk.inj (Except.ok.inj found)
    refine .of_append (Nat.le_refl _) fun after => ?_
    rw [List.cons_append, skipBlanks_cons, if_neg blank]

/-- The number that digits stand for; there are some, and not too many. -/
def digitsValue (digits : List Nat) : Except PatternFault Nat :=
  let value := digits.foldl (fun value digit => value * 10 + digit) 0
  if digits.isEmpty || Nat.pow 2 32 ≤ value then .error .repetition else .ok value

/-- Read a number without the blanks before it. -/
def number (flags : Flags) : Reader Nat :=
  Reader.bind (fun text => .ok (flags.front Char.isDigit text.length text)) fun digits =>
  Reader.bind (fun rest => .ok ((), skipBlanks flags rest)) fun _ rest =>
    (digitsValue (digits.map (·.toNat - 48))).map (·, rest)

theorem decimal_eq (flags : Flags) (text : List Char) :
    decimal flags text = number flags (text.dropWhile Text.isBlank) := by
  unfold decimal number Reader.bind digitsValue
  simp only [digitsOf_eq]
  split <;> rfl

theorem isLocal_decimal (flags : Flags) : IsLocal (decimal flags) := by
  have digits := flags.isLocal_front Char.isDigit rfl
  have number : IsLocal (number flags) := digits.bind fun _ => (isLocal_skipBlanks flags).check _
  intro text item rest found
  exact (isLocal_dropBlanks.bind fun _ => number) _ _ _ ((decimal_eq ..).symm.trans found)
    |>.congr fun after => decimal_eq flags _

theorem isLocal_skipLazy : IsLocal fun text => .ok ((), skipLazy text) := by
  refine .of_nil rfl (fun after => rfl) fun c text item rest found => ?_
  have passed : ∀ text, .ok ((), skipLazy text) =
      Reader.past '?' (fun rest => .ok ((), rest)) (fun rest => .ok ((), rest)) text := by
    intro text
    unfold skipLazy
    split
    case h_1 => rw [Reader.past_cons]
    case h_2 other => rw [Reader.past_of_ne other]
  exact (IsLocal.past (by decide) (.pure ()) (.pure ()) _ _ _ ((passed _).symm.trans found)).congr
    fun after => passed _

/-- Read what follows the closing brace of a repetition. -/
def boundsEnd (flags : Flags) (range : Nat × Option Nat) : Reader (Nat × Option Nat) :=
  fun rest => .ok (range, skipLazy (flags.skip rest))

theorem isLocal_boundsEnd (flags : Flags) (range : Nat × Option Nat) :
    IsLocal (boundsEnd flags range) :=
  (flags.isLocal_skip.bind fun _ => isLocal_skipLazy).check fun _ => .ok range

/-- Read the upper bound of a repetition up to its closing brace. -/
def boundsMost (flags : Flags) (least : Nat) : Reader (Nat × Option Nat) :=
  Reader.bind (decimal flags) fun most => Reader.past '}'
    (if most < least then Reader.fail .repetition else boundsEnd flags (least, some most))
    (Reader.fail .repetition)

/-- Read what follows the lower bound of a repetition. -/
def boundsRest (flags : Flags) (least : Nat) : Reader (Nat × Option Nat) :=
  Reader.past '}' (boundsEnd flags (least, some least)) <|
    Reader.past ',' (fun rest => Reader.past '}' (boundsEnd flags (least, none))
      (boundsMost flags least) (flags.skip rest)) (Reader.fail .repetition)

theorem bounds_eq (flags : Flags) (text : List Char) :
    bounds flags text = Reader.bind (decimal flags) (boundsRest flags) (flags.skip text) := by
  unfold bounds
  rw [Reader.bind_eq]
  refine congrArg _ (funext fun (least, rest) => ?_)
  show _ = boundsRest flags least rest
  unfold boundsRest
  dsimp only
  split
  case h_1 => rw [Reader.past_cons]; rfl
  case h_2 rest =>
    rw [Reader.past_of_ne fun _ same => absurd (List.cons.inj same).1 (by decide), Reader.past_cons]
    split
    case h_1 same => rw [same, Reader.past_cons]; rfl
    case h_2 other =>
      rw [Reader.past_of_ne other, boundsMost, Reader.bind_eq]
      refine congrArg _ (funext fun (most, rest) => ?_)
      dsimp only
      split
      case h_1 =>
        rw [Reader.past_cons]
        split <;> rfl
      case h_2 other => rw [Reader.past_of_ne other]; rfl
  case h_3 first second => rw [Reader.past_of_ne first, Reader.past_of_ne second]; rfl

/-- **The reader of the bounds of a repetition.** -/
theorem isLocal_bounds (flags : Flags) : IsLocal (bounds flags) := by
  have most : ∀ least, IsLocal (boundsMost flags least) := by
    refine fun least => (isLocal_decimal flags).bind fun most => .past (by decide) ?_ (.fail _)
    split
    · exact .fail _
    · exact isLocal_boundsEnd flags _
  have rest : ∀ least, IsLocal (boundsRest flags least) := by
    refine fun least => .past (by decide) (isLocal_boundsEnd flags _) (.past (by decide) ?_ (.fail _))
    exact (IsLocal.past (by decide) (isLocal_boundsEnd flags _) (most least)).skip flags
  rw [show bounds flags = _ from funext (bounds_eq flags)]
  exact ((isLocal_decimal flags).bind rest).skip flags

/-- The bounds of a repetition are in order. -/
theorem le_of_bounds {least : Nat} {most : Option Nat}
    (found : bounds flags text = .ok ((least, most), rest)) : ∀ limit ∈ most, least ≤ limit := by
  have of_end : ∀ {range : Nat × Option Nat} {text}, (∀ limit ∈ range.2, range.1 ≤ limit) →
      boundsEnd flags range text = .ok ((least, most), rest) → ∀ limit ∈ most, least ≤ limit := by
    intro range text order found
    obtain ⟨rfl, _⟩ := Prod.mk.inj (Except.ok.inj found)
    exact order
  rw [bounds_eq] at found
  obtain ⟨first, left, _, found⟩ := Reader.of_bind found
  obtain ⟨_, found⟩ | found := Reader.of_past found
  · exact of_end (fun limit same => Nat.le_of_eq (Option.some.inj same)) found
  obtain ⟨_, found⟩ | found := Reader.of_past found
  case inr => exact nomatch found
  obtain ⟨_, found⟩ | found := Reader.of_past found
  · exact of_end (fun limit impossible => (Option.not_mem_none limit impossible).elim) found
  obtain ⟨last, _, _, found⟩ := Reader.of_bind found
  obtain ⟨_, found⟩ | found := Reader.of_past found
  case inr => exact nomatch found
  split at found
  case isTrue => exact nomatch found
  case isFalse order =>
    exact of_end (fun limit same => Option.some.inj same ▸ Nat.le_of_not_lt order) found

/-! ### Groups -/

/-- Flags end before a colon or a closing parenthesis, whatever follows. -/
theorem flagLetters_append {read : FlagLetters} {chosen : Flags} (after : List Char)
    (found : flagLetters text read = .ok (chosen, rest)) :
    flagLetters (text ++ after) read = .ok (chosen, rest ++ after) ∧ rest.length ≤ text.length := by
  induction text generalizing read with
  | nil => exact nomatch found
  | cons c others ih =>
    simp only [List.cons_append, flagLetters] at found ⊢
    by_cases ends : (decide (c = ':') || decide (c = ')')) = true
    · rw [if_pos ends] at found ⊢
      obtain ⟨rfl, rfl⟩ := Prod.mk.inj (Except.ok.inj found)
      exact ⟨rfl, Nat.le_refl _⟩
    rw [if_neg ends] at found ⊢
    have later : ∀ read, flagLetters others read = .ok (chosen, rest) →
        flagLetters (others ++ after) read = .ok (chosen, rest ++ after) ∧
          rest.length ≤ (c :: others).length := fun read found =>
      (ih found).imp_right Nat.le_succ_of_le
    by_cases hyphen : c = '-'
    · rw [if_pos hyphen] at found ⊢
      match others with
      | [] => rw [Bool.or_true, if_pos rfl] at found; exact nomatch found
      | next :: others =>
        simp only [List.cons_append] at found ⊢
        split at found
        case isTrue => exact nomatch found
        case isFalse valid => rw [if_neg valid]; exact later _ found
    · rw [if_neg hyphen] at found ⊢
      split at found
      case h_1 =>
        split at found
        case isTrue => exact nomatch found
        case isFalse fresh => rw [if_neg fresh]; exact later _ found
      case h_2 => exact nomatch found

theorem isLocal_groupName : IsLocal groupName := by
  intro text name rest found
  unfold groupName at found
  split at found
  case h_2 => exact nomatch found
  case h_1 first others left split =>
    split at found
    case isFalse => exact nomatch found
    case isTrue valid =>
      obtain ⟨rfl, rfl⟩ := Prod.mk.inj (Except.ok.inj found)
      obtain ⟨rfl, absent⟩ := Text.splitFirst?_eq_some_iff.mp split
      refine .of_append (by simp only [List.length_append, List.length_cons]; omega) fun after => ?_
      have longer : Text.splitFirst? '>' (first :: others ++ '>' :: left ++ after) =
          some (first :: others, left ++ after) :=
        Text.splitFirst?_eq_some_iff.mpr ⟨by rw [List.append_assoc]; rfl, absent⟩
      rw [groupName, longer]
      exact if_pos valid

/-- Read flags that hold for a group or for the rest of one. -/
def flagsGroup (flags : Flags) : Reader Opening := fun rest => do
  let (chosen, after) ← flagLetters rest ⟨flags, false, []⟩
  match after with
  | ':' :: after => return (.plain chosen, after)
  | _ :: after =>
    if rest.head? = some ')' then .error .flags
    return (.flags chosen, after)
  | [] => .error .flags

theorem isLocal_flagsGroup (flags : Flags) : IsLocal (flagsGroup flags) := by
  intro text item rest found
  match text with
  | [] => exact nomatch found
  | c :: text =>
    unfold flagsGroup at found
    cases letters : flagLetters (c :: text) ⟨flags, false, []⟩ with
    | error fault => rw [letters] at found; exact nomatch found
    | ok read =>
      obtain ⟨chosen, left⟩ := read
      rw [letters] at found
      have longer := fun after => flagLetters_append after letters
      dsimp only [bind, Except.bind] at found
      split at found
      case h_1 => 
        obtain ⟨rfl, rfl⟩ := Prod.mk.inj (Except.ok.inj found)
        refine .of_append (Nat.le_of_succ_le (longer []).2) fun after => ?_
        rw [flagsGroup, (longer after).1]
        rfl
      case h_2 other => 
        split at found
        case isTrue => exact nomatch found
        case isFalse valid =>
          obtain ⟨rfl, rfl⟩ := Prod.mk.inj (Except.ok.inj found)
          refine .of_append (Nat.le_of_succ_le (longer []).2) fun after => ?_
          rw [flagsGroup, (longer after).1]
          dsimp only [bind, Except.bind]
          rw [List.cons_append]
          split
          case h_1 same => exact (other (List.cons.inj same).1).elim
          case h_2 same =>
            obtain ⟨rfl, rfl⟩ := List.cons.inj same
            exact if_neg valid
          case h_3 same => exact nomatch same
      case h_3 => exact nomatch found

/-- Read the name of a group after its opening bracket. -/
def namedGroup : Reader Opening :=
  Reader.bind groupName fun name rest => .ok (.capture (some name), rest)

/-- Read what follows a question mark. -/
def questionGroup (flags : Flags) : Reader Opening :=
  Reader.past '=' (Reader.fail .lookAround) <| Reader.past '!' (Reader.fail .lookAround) <|
    Reader.past '<' (Reader.past '=' (Reader.fail .lookAround) <|
      Reader.past '!' (Reader.fail .lookAround) namedGroup) <|
    Reader.past 'P' (Reader.past '<' namedGroup (Reader.fail .flags)) (flagsGroup flags)

theorem opening_eq (flags : Flags) (text : List Char) :
    opening flags text = Reader.past '?' (questionGroup flags)
      (fun text => .ok (.capture none, text)) (flags.skip text) := by
  have named := Reader.bind_eq groupName fun name rest => .ok (Opening.capture (some name), rest)
  unfold opening questionGroup
  split
  case h_1 same => rw [same]; rfl
  case h_2 same => rw [same]; rfl
  case h_3 same => rw [same]; rfl
  case h_4 same => rw [same]; rfl
  case h_5 rest same => rw [same]; exact (named rest).symm
  case h_6 rest equal mark same =>
    rw [same, Reader.past_cons, Reader.past_of_ne (by simp), Reader.past_of_ne (by simp),
      Reader.past_cons, Reader.past_of_ne equal, Reader.past_of_ne mark]
    exact (named rest).symm
  case h_7 rest equal mark _ _ name other same =>
    rw [same, Reader.past_cons, Reader.past_of_ne equal, Reader.past_of_ne mark,
      Reader.past_of_ne other]
    cases rest with
    | nil => rfl
    | cons c others =>
      by_cases letter : c = 'P'
      · subst letter
        rw [Reader.past_cons, Reader.past_of_ne fun rest same => name rest (by rw [same])]
        rfl
      · rw [Reader.past_of_ne fun rest same => letter (List.cons.inj same).1]
        rfl
  case h_8 other => rw [Reader.past_of_ne other]

/-- **The reader of what a parenthesis begins.** -/
theorem isLocal_opening (flags : Flags) : IsLocal (opening flags) := by
  have named : IsLocal namedGroup :=
    isLocal_groupName.check fun name => .ok (Opening.capture (some name))
  have question : IsLocal (questionGroup flags) :=
    .past (by decide) (.fail _) <| .past (by decide) (.fail _) <|
      .past (by decide) (.past (by decide) (.fail _) (.past (by decide) (.fail _) named)) <|
      .past (by decide) (.past (by decide) named (.fail _)) (isLocal_flagsGroup flags)
  rw [show opening flags = _ from funext (opening_eq flags)]
  exact (IsLocal.past (by decide) question (.pure _)).skip flags

end Pattern

end Gatehouse
