/-
**Texts inside a group.**

What is set into a group between the tests for both ends of a text is a pattern by itself, if the
whole is a pattern; or else it closes the group before its end. The machine reads the text inside the
group step by step as it would read it alone, up to the parenthesis that closes the group. If that is
the one behind the text, the text alone is read to its end. If it is one of its own, the text alone
has a parenthesis that closes nothing. No other way is left: what takes the closing parenthesis into
an item of the text, or into a comment, leaves nothing that could close the group.

* `Pattern.Machine.Does.without`: a move inside of open groups is one without them, or closes one;
* `Pattern.Machine.frames_of_end`: behind the closing parenthesis nothing else is closed;
* **`Pattern.Machine.Reads.without`**: a text is read inside a group as it is read alone;
* **`Pattern.readPiece_enclosed`**: a text between the tests for both ends.
-/

import Gatehouse.Proofs.Pattern.ClassesAlone
import Gatehouse.Proofs.Pattern.Groups

namespace Gatehouse

namespace Pattern

/-- What is left of a text with a parenthesis behind it leaves the parenthesis, or takes it in. -/
theorem suffix_closing {text left after : List Char} (suffix : left <:+ text ++ ')' :: after) :
    (∃ kept, left = kept ++ ')' :: after) ∨ left <:+ after := by
  obtain shorter | ⟨kept, longer⟩ :=
    List.suffix_or_suffix_of_suffix suffix (List.suffix_append text (')' :: after))
  · exact (List.suffix_cons_iff.mp shorter).imp_left fun all => ⟨[], all⟩
  · exact .inl ⟨kept, longer.symm⟩

/-- Before the end of the whole, blanks and comments leave the closing parenthesis, or nothing that
counts. -/
theorem Flags.skip_closing {flags : Flags} {text after : List Char} (blank : flags.skip text = []) :
    flags.skip (text ++ ')' :: after) = ')' :: after ∨ flags.skip (text ++ ')' :: after) <:+ after := by
  refine (suffix_closing (flags.skip_suffix _)).imp_left fun ⟨kept, left⟩ => ?_
  rw [left, ← Flags.skip_alone left, blank, List.nil_append]

/-- No bounds of a repetition are left at the end. -/
theorem bounds_closing {flags : Flags} {blank : List Char} (ended : flags.skip blank = [])
    {found : (Nat × Option Nat) × List Char} : bounds flags (blank ++ [')', '$']) ≠ .ok found := by
  intro read
  rw [bounds_eq] at read
  obtain ⟨least, rest, first, -⟩ := Reader.of_bind read
  have uncounted : ∀ text, text <:+ [')', '$'] →
      decimal flags text = .error .repetition := by
    intro text suffix
    obtain rfl | suffix := List.suffix_cons_iff.mp suffix
    · rfl
    obtain rfl | suffix := List.suffix_cons_iff.mp suffix
    · rfl
    · rw [List.suffix_nil.mp suffix]
      rfl
  have left : flags.skip (blank ++ [')', '$']) <:+ [')', '$'] :=
    (Flags.skip_closing ended).elim (fun all => ⟨[], all⟩)
      fun taken => taken.trans (List.suffix_cons _ _)
  exact nomatch first.symm.trans (uncounted _ left)

namespace Machine

variable {machine next last : Machine} {text left : List Char} {move : Move}

/-! ### Without the groups around -/

/-- **A move inside of open groups** is one without them, or closes the innermost of them. -/
theorem Does.without {frame : Frame} {frames : List Frame} {names : List (List Char)}
    (does : (machine.within (frame :: frames) names).Does move next) :
    (∃ inner, machine.Does move inner ∧ next = inner.within (frame :: frames) names) ∨
      machine.frames = [] ∧ move = .close := by
  have room : (machine.within (frame :: frames) names).frames.length < maxDepth →
      machine.frames.length < maxDepth := by
    rw [Machine.within, List.length_append]
    omega
  cases does with
  | add piece => exact .inl ⟨_, .add piece, rfl⟩
  | flags flags => exact .inl ⟨_, .flags flags, rfl⟩
  | group flags more => exact .inl ⟨_, .group flags (room more), rfl⟩
  | numbered more => exact .inl ⟨_, .numbered (room more), rfl⟩
  | named unused more =>
    exact .inl ⟨_, .named (fun used => unused (List.mem_append_left _ used)) (room more), rfl⟩
  | split => exact .inl ⟨_, .split, rfl⟩
  | repeatLast least most last => exact .inl ⟨_, .repeatLast least most last, rfl⟩
  | close opened =>
    cases frames_eq : machine.frames with
    | nil => exact .inr ⟨rfl, rfl⟩
    | cons first others =>
      rw [Machine.within, frames_eq] at opened
      obtain ⟨rfl, rfl⟩ := List.cons.inj opened
      exact .inl ⟨_, .close frames_eq, rfl⟩

theorem frames_within_ne_nil {frame : Frame} : (machine.within [frame] []).frames ≠ [] :=
  List.append_ne_nil_of_right_ne_nil _ (List.cons_ne_nil _ _)

/-! ### Behind the closing parenthesis -/

/-- An item of a text that is read to its end. -/
theorem Reads.of_cons {c : Char} {rest : List Char}
    (reads : Reads machine (c :: rest) last left) (plain : machine.flags = .plain)
    (ended : last.flags.skip left = []) :
    ∃ move others next, Flags.plain.move c rest = .ok (move, others) ∧ machine.Does move next ∧
      Reads next others last left := by
  have all : machine.flags.skip (c :: rest) = c :: rest := by rw [plain]; rfl
  cases reads with
  | done => exact nomatch all.symm.trans ended
  | item first read does later =>
    obtain ⟨rfl, rfl⟩ := List.cons.inj (first.symm.trans all)
    exact ⟨_, _, _, plain ▸ read, does, later⟩

theorem Reads.of_nil (reads : Reads machine [] last left) : last = machine ∧ left = [] := by
  cases reads with
  | done => exact ⟨rfl, rfl⟩
  | item first => exact nomatch machine.flags.skip_nil.symm.trans first

/-- Behind the closing parenthesis no group is opened or closed. -/
theorem frames_of_end (suffix : text <:+ ['$']) (reads : Reads machine text last left) :
    last.frames = machine.frames := by
  obtain rfl | suffix := List.suffix_cons_iff.mp suffix
  · cases reads with
    | done => rfl
    | item first read does later =>
      have mark : machine.flags.skip ['$'] = ['$'] := by
        rw [Flags.skip]
        split <;> rfl
      obtain ⟨rfl, rfl⟩ := List.cons.inj (first.symm.trans mark)
      cases read
      cases does
      rw [later.of_nil.1]
      rfl
  · obtain rfl := List.suffix_nil.mp suffix
    rw [reads.of_nil.1]

/-- What takes the closing parenthesis in leaves the group open. -/
theorem open_of_end {frame : Frame} (suffix : text <:+ ['$'])
    (reads : Reads (machine.within [frame] []) text last left) : last.frames ≠ [] :=
  frames_of_end suffix reads ▸ frames_within_ne_nil

/-- Behind the closing parenthesis the end of the text is tested. -/
theorem branches_of_end (plain : machine.flags = .plain) (reads : Reads machine ['$'] last left)
    (ended : last.flags.skip left = []) :
    last.branches = machine.branches.add (.look .finish) := by
  obtain ⟨move, others, next, read, does, later⟩ := reads.of_cons plain ended
  cases read
  cases does
  rw [later.of_nil.1]
  rfl

/-- A text is read alone until only blanks and comments are left, and the parenthesis behind it
closes the group around it; or until a parenthesis of its own closes nothing. -/
inductive ReadsAlone (machine : Machine) (text : List Char) (frame : Frame) (last : Machine)
    (left : List Char) : Prop where
  | whole {inner next : Machine} {blank : List Char} (reads : Reads machine text inner blank)
      (ended : inner.flags.skip blank = []) (closed : inner.frames = [])
      (does : (inner.within [frame] []).Does .close next) (later : Reads next ['$'] last left)
  | stray {inner : Machine} {others rest : List Char} (reads : Reads machine text inner others)
      (first : inner.flags.skip others = ')' :: rest) (closed : inner.frames = [])

/-- A step before a text that is read alone. -/
theorem ReadsAlone.item {frame : Frame} {c : Char} {rest others : List Char}
    (first : machine.flags.skip text = c :: rest)
    (read : machine.flags.move c rest = .ok (move, others)) (does : machine.Does move next)
    (later : ReadsAlone next others frame last left) : ReadsAlone machine text frame last left := by
  cases later with
  | whole reads ended closed closes later =>
    exact .whole (.item first read does reads) ended closed closes later
  | stray reads first' closed => exact .stray (.item first read does reads) first' closed

theorem eq_closing_of_move {flags : Flags} {c : Char} {rest others : List Char}
    (read : flags.move c rest = .ok (.close, others)) : c = ')' := by
  unfold Flags.move at read
  split at read
  case h_2 => rfl
  case h_1 | h_4 | h_8 | h_9 =>
    obtain ⟨_, _, _, other⟩ := Reader.of_bind read
    exact nomatch other
  all_goals exact nomatch read

/-- No item begins with a brace that only the end of the whole follows. -/
theorem open_of_brace {frame : Frame} {blank : List Char} (ended : machine.flags.skip blank = [])
    (reads : Reads (machine.within [frame] []) ('{' :: blank ++ [')', '$']) last left) :
    last.frames ≠ [] := by
  cases reads with
  | done => exact frames_within_ne_nil
  | item first read does later =>
    have brace : ∀ text, machine.flags.skip ('{' :: text) = '{' :: text := by
      intro text
      rw [Flags.skip]
      split <;> rfl
    obtain ⟨rfl, rfl⟩ := List.cons.inj (first.symm.trans (brace _))
    obtain ⟨_, _, bounds, _⟩ := Reader.of_bind read
    exact (bounds_closing ended bounds).elim

/-- **A text is read inside a group as it is read alone.** -/
theorem Reads.without {frame : Frame} (closes : last.frames = [])
    (reads : Reads (machine.within [frame] []) (text ++ [')', '$']) last left) :
    ReadsAlone machine text frame last left := by
  generalize inside : machine.within [frame] [] = outer at reads
  generalize long : text ++ [')', '$'] = whole at reads
  induction reads generalizing machine text with
  | done =>
    subst inside
    exact (frames_within_ne_nil closes).elim
  | @item _ next last whole rest others left c move first read does later ih =>
    subst inside long
    have smaller := (machine.flags.move_modest c).leaves read
    obtain ⟨kept, all⟩ | taken := suffix_closing (first ▸ machine.flags.skip_suffix _)
    case inr =>
      -- what is left is behind the closing parenthesis
      obtain ⟨inner, -, rfl⟩ | ⟨-, rfl⟩ := does.without
      · have taken := smaller.trans ((List.suffix_cons _ _).trans taken)
        exact (open_of_end taken later closes).elim
      · obtain rfl := eq_closing_of_move read
        exact absurd (taken.mem List.mem_cons_self) (by decide)
    case inl =>
      have alone : machine.flags.skip text = kept := Flags.skip_alone (first.trans all)
      cases kept with
      | nil =>
        obtain ⟨rfl, rfl⟩ := List.cons.inj all
        obtain ⟨rfl, rfl⟩ := Prod.mk.inj (Except.ok.inj read)
        obtain ⟨inner, -, rfl⟩ | ⟨closed, -⟩ := does.without
        · exact (open_of_end (List.suffix_refl _) later closes).elim
        · exact .whole (.done _ _) alone closed does later
      | cons d inner_rest =>
        obtain ⟨rfl, rfl⟩ := List.cons.inj all
        obtain ⟨inner, moves, rfl⟩ | ⟨closed, rfl⟩ := does.without
        case inr =>
          obtain rfl := eq_closing_of_move read
          exact .stray (.done _ _) alone closed
        case inl =>
          obtain ⟨left_over, rfl⟩ | taken := suffix_closing smaller
          case inr => exact (open_of_end taken later closes).elim
          case inl =>
            obtain read | spared := (machine.flags.move_modest _).alone_or read
            · exact .item alone read moves (ih closes rfl rfl)
            · obtain ⟨⟨piece, rfl⟩, blank, rfl, ended⟩ := spared
              cases moves
              have ended : (machine.add piece).flags.skip blank = [] := ended
              exact (open_of_brace ended later closes).elim

end Machine

/-! ### Texts between the tests for both ends -/

/-- The piece of a text that stands between the tests for both ends of a text. -/
def Piece.enclosed (piece : Piece) : Piece := .sequence [.look .start, piece, .look .finish]

theorem Piece.Fits.of_enclosed {piece : Piece} (fits : piece.enclosed.Fits) : piece.Fits := by
  simp only [Fits, enclosed, sequence, depths, costs, totalCost, look, unitCosts, List.foldl_cons,
    List.foldl_nil] at fits ⊢
  omega

/-- The frame of the group between the tests for both ends. -/
def Frame.enclosing : Frame := ⟨Branches.start.add (.look .start), .plain, false⟩

/-- The test before the group and the beginning of the group. -/
theorem Machine.Reads.of_enclosed {text left : List Char} {last : Machine}
    (reads : Reads .start ('^' :: '(' :: '?' :: ':' :: text) last left)
    (ended : last.flags.skip left = []) :
    Reads (Machine.start.within [.enclosing] []) text last left := by
  obtain ⟨move, others, next, read, does, later⟩ := reads.of_cons rfl ended
  cases read
  cases does
  obtain ⟨move, others, next, read, does, later⟩ := later.of_cons rfl ended
  have enters : Flags.plain.move '(' ('?' :: ':' :: text) = .ok (.enter (.plain .plain), text) := rfl
  obtain ⟨rfl, rfl⟩ := Prod.mk.inj (Except.ok.inj (enters.symm.trans read))
  cases does
  exact later

/-- **A text between the tests for both ends** is read as a pattern only if the text alone is, or if
it has a parenthesis that closes nothing. -/
theorem readPiece_enclosed {text : List Char} {whole : Piece}
    (read : readPiece ('^' :: '(' :: '?' :: ':' :: (text ++ [')', '$'])) = .ok whole) :
    readPiece text = .error .groupNotOpen ∨
      ∃ piece, readPiece text = .ok piece ∧ whole = piece.enclosed := by
  obtain ⟨⟨last, left, reads, ended, closed, rfl⟩, fits⟩ := readPiece_eq_ok_iff.mp read
  cases (reads.of_enclosed ended).without closed with
  | stray alone first outside => exact .inl (readPiece_of_stray alone first outside)
  | @whole inner next blank alone blank_end outside does later =>
    right
    -- the parenthesis closes the group around the text, and the test for the end follows
    have opened : (inner.within [.enclosing] []).frames = [.enclosing] := by
      rw [Machine.within, outside, List.nil_append]
    cases does with
    | close opens =>
      obtain ⟨rfl, rfl⟩ := List.cons.inj (opens.symm.trans opened)
      have same : last.branches.piece = inner.branches.piece.enclosed := by
        rw [Machine.branches_of_end rfl later ended]
        rfl
      rw [same] at fits ⊢
      exact ⟨_, readPiece_eq_ok_iff.mpr ⟨⟨inner, blank, alone, blank_end, outside, rfl⟩,
        fits.of_enclosed⟩, rfl⟩

end Pattern

end Gatehouse
