/-
**Readers of patterns.**

Every part of a pattern is read from the front of a text, and what follows it is left. What a reader
finds in a text it finds before a closing parenthesis as well: the parenthesis is left over, so that
a pattern is read inside a group as it is read alone. Only a comment at the end of the text, where
comments count, takes the parenthesis in.

* `Pattern.Local`: what a reader finds in a text and before a closing parenthesis;
* `Pattern.IsLocal`: a reader that is local wherever it finds anything;
* `Pattern.Reader.bind`, `Pattern.Reader.past`: readers one after another, and by a character;
  `Pattern.IsLocal.bind`, `Pattern.IsLocal.past`;
* `Pattern.IsLocal.of_enough`: readers that loop;
* `Pattern.Flags.front`: the characters at the front of a text that belong together.
-/

import Gatehouse.Pattern.Escape

namespace Gatehouse

namespace Pattern

variable {α β : Type} {flags : Flags} {text rest : List Char}

/-- A reader of an item at the front of a text. -/
abbrev Reader (α : Type) := List Char → Except PatternFault (α × List Char)

/-- What a reader finds in a text, and that it finds it before a closing parenthesis as well, which
is left unless it falls to a comment at the end of the text. -/
structure Local (read : Reader α) (text : List Char) (item : α) (rest : List Char) : Prop where
  found : read text = .ok (item, rest)
  length_le : rest.length ≤ text.length
  before : (∀ after, read (text ++ ')' :: after) = .ok (item, rest ++ ')' :: after)) ∨
    rest = [] ∧ read (text ++ [')']) = .ok (item, [])

/-- Whatever a reader finds, it finds it before a closing parenthesis as well. -/
def IsLocal (read : Reader α) : Prop :=
  ∀ text item rest, read text = .ok (item, rest) → Local read text item rest

/-! ### Blanks and comments -/

theorem skipSpace_append {inComment : Bool} (others : skipSpace inComment text ≠ [])
    (after : List Char) :
    skipSpace inComment (text ++ after) = skipSpace inComment text ++ after := by
  fun_induction skipSpace inComment text with
  | case1 => exact (others rfl).elim
  | case2 c rest ih => exact ih others
  | case3 c rest blank ih => rw [List.cons_append, skipSpace, if_pos blank, ih others]
  | case4 rest _ ih => exact ih others
  | case5 c rest blank comment =>
    rw [List.cons_append, skipSpace, if_neg blank, if_neg comment]

/-- Behind blanks and comments a closing parenthesis is left, unless it belongs to a comment. -/
theorem skipSpace_before {inComment : Bool} (empty : skipSpace inComment text = []) :
    (∀ after, skipSpace inComment (text ++ ')' :: after) = ')' :: after) ∨
      skipSpace inComment (text ++ [')']) = [] := by
  fun_induction skipSpace inComment text with
  | case1 inComment =>
    cases inComment with
    | false => exact .inl fun after => rfl
    | true => exact .inr rfl
  | case2 c rest ih => exact ih empty
  | case3 c rest blank ih => simpa only [List.cons_append, skipSpace, if_pos blank] using ih empty
  | case4 rest _ ih => exact ih empty
  | case5 => exact (List.cons_ne_nil _ _ empty).elim

theorem length_skipSpace_le {inComment : Bool} :
    (skipSpace inComment text).length ≤ text.length := by
  fun_induction skipSpace inComment text with
  | case1 => exact Nat.le_refl _
  | case2 c rest ih => exact Nat.le_succ_of_le ih
  | case3 c rest _ ih => exact Nat.le_succ_of_le ih
  | case4 rest _ ih => exact Nat.le_succ_of_le ih
  | case5 => exact Nat.le_refl _

theorem Flags.skip_nil (flags : Flags) : flags.skip [] = [] := by
  unfold skip
  split <;> rfl

theorem Flags.length_skip_le (flags : Flags) (text : List Char) :
    (flags.skip text).length ≤ text.length := by
  unfold skip
  split
  · exact length_skipSpace_le
  · exact Nat.le_refl _

theorem Flags.skip_append (others : flags.skip text ≠ []) (after : List Char) :
    flags.skip (text ++ after) = flags.skip text ++ after := by
  unfold skip at others ⊢
  split
  case isTrue free =>
    rw [if_pos free] at others
    exact skipSpace_append others after
  case isFalse => rfl

/-- Behind blanks and comments a closing parenthesis is left, unless it belongs to a comment. -/
theorem Flags.skip_before (ended : flags.skip text = []) :
    (∀ after, flags.skip (text ++ ')' :: after) = ')' :: after) ∨
      flags.skip (text ++ [')']) = [] := by
  unfold skip at ended ⊢
  cases free : flags.freeSpacing with
  | true =>
    rw [if_pos free] at ended
    simpa only [if_true] using skipSpace_before ended
  | false =>
    rw [if_neg (by rw [free]; exact Bool.false_ne_true)] at ended
    exact .inl fun after => by rw [ended]; rfl

/-- Passing over blanks and comments is local. -/
theorem Flags.isLocal_skip (flags : Flags) : IsLocal fun text => .ok ((), flags.skip text) := by
  rintro text ⟨⟩ rest found
  obtain rfl : flags.skip text = rest := congrArg Prod.snd (Except.ok.inj found)
  refine ⟨rfl, flags.length_skip_le text, ?_⟩
  by_cases ended : flags.skip text = []
  · rw [ended]
    exact (skip_before ended).imp (fun all after => by rw [all after]; rfl)
      fun taken => ⟨rfl, by rw [taken]⟩
  · exact .inl fun after => by rw [skip_append ended]

/-! ### Readers together -/

/-- One reader after another. -/
def Reader.bind (read : Reader α) (next : α → Reader β) : Reader β := fun text =>
  match read text with
  | .ok (item, rest) => next item rest
  | .error fault => .error fault

theorem Reader.bind_eq (read : Reader α) (next : α → Reader β) (text : List Char) :
    Reader.bind read next text = read text >>= fun (item, rest) => next item rest := by
  unfold Reader.bind
  cases read text <;> rfl

/-- Read on past a given character, or without it. -/
def Reader.past (c : Char) (here otherwise : Reader α) : Reader α
  | [] => otherwise []
  | d :: rest => if d = c then here rest else otherwise (d :: rest)

@[simp] theorem Reader.past_cons {c : Char} {here otherwise : Reader α} (rest : List Char) :
    Reader.past c here otherwise (c :: rest) = here rest :=
  if_pos rfl

theorem Reader.past_of_ne {c : Char} {here otherwise : Reader α}
    (other : ∀ rest, text = c :: rest → False) :
    Reader.past c here otherwise text = otherwise text := by
  cases text with
  | nil => rfl
  | cons d rest => exact if_neg fun same => other rest (by rw [same])

theorem Reader.of_bind {read : Reader α} {next : α → Reader β} {found : β × List Char}
    (reads : Reader.bind read next text = .ok found) :
    ∃ item rest, read text = .ok (item, rest) ∧ next item rest = .ok found := by
  unfold Reader.bind at reads
  split at reads
  case h_1 item rest same => exact ⟨item, rest, same, reads⟩
  case h_2 => exact nomatch reads

theorem Reader.of_past {c : Char} {here otherwise : Reader α} {found : α × List Char}
    (reads : Reader.past c here otherwise text = .ok found) :
    (∃ rest, here rest = .ok found) ∨ otherwise text = .ok found := by
  cases text with
  | nil => exact .inr reads
  | cons d rest =>
    rw [Reader.past] at reads
    split at reads
    case isTrue => exact .inl ⟨rest, reads⟩
    case isFalse => exact .inr reads

/-- Nothing is read. -/
def Reader.fail (fault : PatternFault) : Reader α := fun _ => .error fault

namespace IsLocal

theorem pure (item : α) : IsLocal fun text => .ok (item, text) := by
  intro text found rest same
  obtain ⟨rfl, rfl⟩ := Prod.mk.inj (Except.ok.inj same)
  exact ⟨rfl, Nat.le_refl _, .inl fun after => rfl⟩

theorem fail (fault : PatternFault) : IsLocal (α := α) (Reader.fail fault) :=
  fun _ _ _ found => nomatch found

theorem bind {read : Reader α} {next : α → Reader β} (first : IsLocal read)
    (second : ∀ item, IsLocal (next item)) : IsLocal (Reader.bind read next) := by
  intro text item rest found
  unfold Reader.bind at found
  cases reading : read text with
  | error fault =>
    rw [reading] at found
    exact nomatch found
  | ok both =>
    obtain ⟨middle, others⟩ := both
    rw [reading] at found
    obtain ⟨_, shorter, before⟩ := first _ _ _ reading
    have later := second _ _ _ _ found
    refine ⟨?_, Nat.le_trans later.length_le shorter, ?_⟩
    · rw [Reader.bind, reading]
      exact found
    · obtain all | ⟨rfl, taken⟩ := before
      · refine later.before.imp (fun after_all after => ?_) fun ⟨left, taken⟩ => ⟨left, ?_⟩
        · rw [Reader.bind, all after]
          exact after_all after
        · rw [Reader.bind, all []]
          exact taken
      · -- the first reader has taken the parenthesis in, and the second one reads what it read before
        obtain rfl := List.eq_nil_of_length_eq_zero (Nat.le_zero.mp later.length_le)
        refine .inr ⟨rfl, ?_⟩
        rw [Reader.bind, taken]
        exact found

/-- A reader that begins behind blanks and comments. -/
theorem skip {read : Reader α} (flags : Flags) (reads : IsLocal read) :
    IsLocal fun text => read (flags.skip text) :=
  flags.isLocal_skip.bind fun _ => reads

/-- A reader whose item is changed, or refused. -/
theorem check {read : Reader α} (reads : IsLocal read) (judge : α → Except PatternFault β) :
    IsLocal (Reader.bind read fun item rest => (judge item).map (·, rest)) :=
  reads.bind fun item => by
    cases judge item with
    | ok item => exact .pure item
    | error fault => exact .fail fault

end IsLocal

/-- A reader of a text with a first character, as a reader of what follows the character. -/
theorem Local.cons {read : Reader α} {c : Char} {item : α}
    (reads : Local (fun text => read (c :: text)) text item rest) :
    Local read (c :: text) item rest :=
  ⟨reads.found, Nat.le_succ_of_le reads.length_le, reads.before⟩

/-- Two readers that agree on a text, whatever follows. -/
theorem Local.congr {read other : Reader α} {item : α}
    (reads : Local other text item rest)
    (same : ∀ after, read (text ++ after) = other (text ++ after)) : Local read text item rest := by
  refine ⟨?_, reads.length_le, reads.before.imp (fun all after => (same _).trans (all after))
    fun ⟨left, taken⟩ => ⟨left, (same _).trans taken⟩⟩
  have alone := same []
  rw [List.append_nil] at alone
  exact alone.trans reads.found

/-- A reader that finds the same whatever follows. -/
theorem Local.of_append {read : Reader α} {item : α} (shorter : rest.length ≤ text.length)
    (same : ∀ after, read (text ++ after) = .ok (item, rest ++ after)) :
    Local read text item rest := by
  refine ⟨?_, shorter, .inl fun after => same (')' :: after)⟩
  simpa only [List.append_nil] using same []

namespace IsLocal

/-- A reader that needs a character. -/
theorem of_cons {read : Reader α} (atEnd : ∀ found, read [] ≠ .ok found)
    (onward : ∀ c text item rest, read (c :: text) = .ok (item, rest) →
      Local read (c :: text) item rest) : IsLocal read
  | [], _, _, found => (atEnd _ found).elim
  | c :: text, item, rest, found => onward c text item rest found

/-- A reader that finds nothing in an empty text, and leaves a closing parenthesis alone. -/
theorem of_nil {read : Reader α} {item : α} (atEnd : read [] = .ok (item, []))
    (closing : ∀ after, read (')' :: after) = .ok (item, ')' :: after))
    (onward : ∀ c text item rest, read (c :: text) = .ok (item, rest) →
      Local read (c :: text) item rest) : IsLocal read
  | [], _, _, found => by
    obtain ⟨rfl, rfl⟩ := Prod.mk.inj (Except.ok.inj (atEnd.symm.trans found))
    exact ⟨atEnd, Nat.le_refl _, .inl closing⟩
  | c :: text, item, rest, found => onward c text item rest found

/-- A reader that does different things past a character and without it. -/
theorem past {c : Char} {here otherwise : Reader α} (apart : ')' ≠ c) (inside : IsLocal here)
    (without : IsLocal otherwise) : IsLocal (Reader.past c here otherwise)
  | [], item, rest, found => by
    obtain ⟨_, shorter, before⟩ := without _ _ _ found
    refine ⟨found, shorter, before.imp (fun all after => ?_) fun ⟨left, taken⟩ => ⟨left, ?_⟩⟩
    · exact (if_neg apart).trans (all after)
    · exact (if_neg apart).trans taken
  | d :: text, item, rest, found => by
    by_cases same : d = c
    · refine .cons ?_
      simp only [Reader.past, if_pos same] at found ⊢
      exact inside _ _ _ found
    · rw [Reader.past, if_neg same] at found
      exact (without _ _ _ found).congr fun after => if_neg same

/-- A reader with a bound on its work that the length of the text suffices for. -/
theorem of_enough (read : Nat → Reader α) (extra : Nat)
    (enough : ∀ count text, text.length + extra ≤ count →
      read count text = read (text.length + extra) text)
    (reads : ∀ count, IsLocal (read count)) :
    IsLocal fun text => read (text.length + extra) text := by
  intro text item rest found
  have reading : ∀ after, Local (read ((text ++ after).length + extra)) text item rest := by
    refine fun after => reads _ _ _ _ ?_
    rw [enough _ text (by simp only [List.length_append]; omega)]
    exact found
  refine ⟨found, (reading []).length_le, Classical.or_iff_not_imp_right.mpr fun kept after => ?_⟩
  refine (reading (')' :: after)).before.elim (fun all => all after) fun ⟨left, taken⟩ => ?_
  rw [enough _ (text ++ [')'])
    (by simp only [List.length_append, List.length_cons, List.length_nil]; omega)] at taken
  exact (kept ⟨left, taken⟩).elim

end IsLocal

/-! ### Characters that belong together -/

/-- The characters at the front of a text that are accepted, with blanks and comments between them,
and the rest; the count bounds the length of the text. -/
def Flags.front (flags : Flags) (accepts : Char → Bool) :
    (count : Nat) → List Char → List Char × List Char
  | count + 1, c :: rest =>
    if accepts c then
      let (taken, rest) := flags.front accepts count (flags.skip rest)
      (c :: taken, rest)
    else ([], c :: rest)
  | _, text => ([], text)

theorem Flags.front_enough {accepts : Char → Bool} {count other : Nat}
    (enough : text.length ≤ count) (enough' : text.length ≤ other) :
    flags.front accepts count text = flags.front accepts other text := by
  induction count generalizing text other with
  | zero =>
    obtain rfl := List.eq_nil_of_length_eq_zero (Nat.le_zero.mp enough)
    cases other <;> rfl
  | succ count ih =>
    match text, other with
    | [], 0 | [], other + 1 => rfl
    | c :: rest, other + 1 =>
      have shorter := flags.length_skip_le rest
      rw [List.length_cons] at enough enough'
      have same := @ih (flags.skip rest) other (by omega) (by omega)
      rw [front, front, same]

theorem Flags.isLocal_front (flags : Flags) (accepts : Char → Bool) (refused : accepts ')' = false) :
    IsLocal fun text => .ok (flags.front accepts text.length text) := by
  refine IsLocal.of_enough (fun count text => .ok (flags.front accepts count text)) 0
    (fun count text enough => ?_) fun count => ?_
  · exact congrArg Except.ok (front_enough enough (Nat.le_refl _))
  · induction count with
    | zero => exact .pure []
    | succ count ih =>
      refine .of_nil rfl (fun after => ?_) fun c text item rest found => ?_
      · rw [front, if_neg (by rw [refused]; exact Bool.false_ne_true)]
      · by_cases accepted : accepts c = true
        · refine Local.cons ?_
          simp only [front, if_pos accepted] at found ⊢
          exact (ih.skip flags).check (fun taken => .ok (c :: taken)) _ _ _ found
        · have same : ∀ after, flags.front accepts (count + 1) (c :: after) = ([], c :: after) :=
            fun after => by rw [front, if_neg accepted]
          obtain ⟨rfl, rfl⟩ := Prod.mk.inj ((same text).symm.trans (Except.ok.inj found))
          exact .of_append (Nat.le_refl _) fun after => congrArg Except.ok (same _)

end Pattern

end Gatehouse
