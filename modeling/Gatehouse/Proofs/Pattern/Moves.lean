/-
**The moves of the machine that reads patterns.**

A step reads one item, which depends on the flags and the text alone, and then moves the machine,
which does not depend on the text. A text is read by such steps until only blanks and comments are
left; it is always long enough for as many steps as it takes.

* `Pattern.Flags.move`, `Pattern.Machine.apply`: the two parts of a step;
* `Pattern.Machine.Does`: what a move makes of the machine; **`Pattern.Machine.step_eq_ok_iff`**;
* **`Pattern.Flags.isLocal_move`**: every item is read as it is read before a closing parenthesis;
* `Pattern.Machine.Reads`: steps one after another; **`Pattern.Machine.run_eq_ok_iff`**;
* **`Pattern.isOrdered_of_parse`**: the bounds of all repetitions of a pattern are in order.
-/

import Gatehouse.Pattern.Syntax
import Gatehouse.Proofs.Pattern.Classes
import Gatehouse.Proofs.Pattern.Matching

namespace Gatehouse

namespace Pattern

/-- What an item does to the machine. -/
inductive Move where
  | add (piece : Piece)
  | enter (opened : Opening)
  | close
  | split
  | repeatLast (least : Nat) (most : Option Nat)

/-- Read the item that begins with a character. -/
def Flags.move (flags : Flags) (c : Char) (rest : List Char) :
    Except PatternFault (Move × List Char) :=
  match c with
  | '(' => Reader.bind (opening flags) (fun opened rest => .ok (.enter opened, rest)) rest
  | ')' => .ok (.close, rest)
  | '|' => .ok (.split, rest)
  | '[' => Reader.bind (classSet flags) (fun chars rest => .ok (.add (.set chars), rest)) rest
  | '?' => .ok (.repeatLast 0 (some 1), skipLazy rest)
  | '*' => .ok (.repeatLast 0 none, skipLazy rest)
  | '+' => .ok (.repeatLast 1 none, skipLazy rest)
  | '{' =>
    Reader.bind (bounds flags) (fun (least, most) rest => .ok (.repeatLast least most, rest)) rest
  | '\\' => Reader.bind (escape flags) (fun atom rest => .ok (.add atom.piece, rest)) rest
  | '.' => .ok (.add (Machine.dot flags), rest)
  | '^' => .ok (.add (.look (Machine.caret flags)), rest)
  | '$' => .ok (.add (.look (Machine.dollar flags)), rest)
  | c => .ok (.add (flags.atom c).piece, rest)

/-- **Every item is read as it is read before a closing parenthesis.** -/
theorem Flags.isLocal_move (flags : Flags) (c : Char) : IsLocal (flags.move c) := by
  unfold move
  split
  case h_1 => exact (isLocal_opening flags).check fun opened => .ok (Move.enter opened)
  case h_4 => exact (isLocal_classSet flags).check fun chars => .ok (Move.add (.set chars))
  case h_5 | h_6 | h_7 => exact isLocal_skipLazy.check fun _ => .ok _
  case h_8 => exact (isLocal_bounds flags).check fun range => .ok (Move.repeatLast range.1 range.2)
  case h_9 => exact (isLocal_escape flags).check fun atom => .ok (Move.add atom.piece)
  all_goals exact .pure _

namespace Machine

/-- Do what an item does. -/
def apply (machine : Machine) : Move → Except PatternFault Machine
  | .add piece => .ok (machine.add piece)
  | .enter opened => machine.enter opened
  | .close => machine.close
  | .split => .ok { machine with branches := machine.branches.split }
  | .repeatLast least most => machine.repeatLast least most

/-- The machine inside a group that has just been opened. -/
def inside (machine : Machine) (flags : Flags) (captures : Bool) : Machine :=
  { machine with
    branches := .start, flags := flags,
    frames := ⟨machine.branches, machine.flags, captures⟩ :: machine.frames }

/-- The piece of a group that is closed. -/
def closed (machine : Machine) (frame : Frame) : Piece :=
  if frame.captures then machine.branches.piece.capture else machine.branches.piece

/-- What a move makes of the machine, and what it needs: something to repeat, room for another
group, a name that no group has, or a group to close. -/
inductive Does (machine : Machine) : Move → Machine → Prop where
  | add (piece : Piece) : Does machine (.add piece) (machine.add piece)
  | flags (flags : Flags) : Does machine (.enter (.flags flags)) { machine with flags := flags }
  | group (flags : Flags) (room : machine.frames.length < maxDepth) :
      Does machine (.enter (.plain flags)) (machine.inside flags false)
  | numbered (room : machine.frames.length < maxDepth) :
      Does machine (.enter (.capture none)) (machine.inside machine.flags true)
  | named {name : List Char} (unused : name ∉ machine.names)
      (room : machine.frames.length < maxDepth) :
      Does machine (.enter (.capture (some name)))
        (inside { machine with names := name :: machine.names } machine.flags true)
  | close {frame : Frame} {frames : List Frame} (opened : machine.frames = frame :: frames) :
      Does machine .close { machine with
        branches := frame.outer.add (machine.closed frame), flags := frame.flags, frames := frames }
  | split : Does machine .split { machine with branches := machine.branches.split }
  | repeatLast {piece : Piece} {items : List Piece} (least : Nat) (most : Option Nat)
      (last : machine.branches.items = piece :: items) :
      Does machine (.repeatLast least most) { machine with
        branches := { machine.branches with items := piece.repetition least most :: items } }

theorem openGroup_eq_ok_iff {machine next : Machine} {flags : Flags} {captures : Bool} :
    machine.openGroup flags captures = .ok next ↔
      machine.frames.length < maxDepth ∧ machine.inside flags captures = next := by
  unfold openGroup
  split
  case isTrue deep => exact iff_of_false nofun fun ⟨room, _⟩ => Nat.not_lt_of_le deep room
  case isFalse room =>
    exact ⟨fun same => ⟨Nat.lt_of_not_le room, Except.ok.inj same⟩, fun ⟨_, same⟩ => same ▸ rfl⟩

/-- **What a move makes of the machine.** -/
theorem apply_eq_ok_iff {machine next : Machine} {move : Move} :
    machine.apply move = .ok next ↔ machine.Does move next := by
  constructor
  · intro applied
    unfold apply at applied
    split at applied
    case h_1 piece => cases applied; exact .add piece
    case h_2 opening =>
      unfold enter at applied
      split at applied
      case h_1 flags => cases applied; exact .flags flags
      case h_2 flags =>
        obtain ⟨room, rfl⟩ := openGroup_eq_ok_iff.mp applied
        exact .group flags room
      case h_3 =>
        obtain ⟨room, rfl⟩ := openGroup_eq_ok_iff.mp applied
        exact .numbered room
      case h_4 name =>
        split at applied
        case isTrue => exact nomatch applied
        case isFalse unused =>
          obtain ⟨room, rfl⟩ := openGroup_eq_ok_iff.mp applied
          exact .named (fun used => unused (List.contains_iff_mem.mpr used)) room
    case h_3 =>
      unfold Machine.close at applied
      split at applied
      case h_1 => exact nomatch applied
      case h_2 opened => cases applied; exact .close opened
    case h_4 => cases applied; exact .split
    case h_5 least most =>
      unfold Machine.repeatLast at applied
      split at applied
      case h_1 => exact nomatch applied
      case h_2 last => cases applied; exact .repeatLast least most last
  · intro does
    cases does with
    | add | flags | split => rfl
    | group flags room => exact openGroup_eq_ok_iff.mpr ⟨room, rfl⟩
    | numbered room => exact openGroup_eq_ok_iff.mpr ⟨room, rfl⟩
    | named unused room =>
      have unused : ¬machine.names.contains _ = true := fun used =>
        unused (List.contains_iff_mem.mp used)
      rw [apply, enter, if_neg unused]
      exact openGroup_eq_ok_iff.mpr ⟨room, rfl⟩
    | close opened => rw [apply, Machine.close, opened]; rfl
    | repeatLast least most last => rw [apply, Machine.repeatLast, last]

/-- Do what an item does once it is read. -/
def follow (machine : Machine) (read : Except PatternFault (Move × List Char)) :
    Except PatternFault (Machine × List Char) :=
  match read with
  | .ok (move, left) => (machine.apply move).map (·, left)
  | .error fault => .error fault

theorem follow_eq_ok_iff {machine next : Machine} {left : List Char}
    {read : Except PatternFault (Move × List Char)} :
    machine.follow read = .ok (next, left) ↔
      ∃ move, read = .ok (move, left) ∧ machine.apply move = .ok next := by
  unfold follow
  constructor
  · intro followed
    split at followed
    case h_2 => exact nomatch followed
    case h_1 move others =>
      cases applied : machine.apply move with
      | error fault => rw [applied] at followed; exact nomatch followed
      | ok machine =>
        rw [applied] at followed
        obtain ⟨rfl, rfl⟩ := Prod.mk.inj (Except.ok.inj followed)
        exact ⟨move, rfl, applied⟩
  · rintro ⟨move, rfl, applied⟩
    simp only [applied]
    rfl

/-- **A step reads an item and moves the machine.** -/
theorem step_eq_ok_iff {machine next : Machine} {c : Char} {rest left : List Char} :
    machine.step c rest = .ok (next, left) ↔
      ∃ move, machine.flags.move c rest = .ok (move, left) ∧ machine.Does move next := by
  simp only [← apply_eq_ok_iff, ← follow_eq_ok_iff]
  unfold step
  split
  case h_1 =>
    rw [Flags.move, Reader.bind_eq]
    cases opening machine.flags rest <;> rfl
  case h_2 =>
    dsimp only [Flags.move, follow, apply]
    cases machine.close <;> rfl
  case h_4 =>
    rw [Flags.move, Reader.bind_eq]
    cases classSet machine.flags rest <;> rfl
  case h_9 =>
    rw [Flags.move, Reader.bind_eq]
    cases escape machine.flags rest <;> rfl
  case h_8 =>
    -- without anything to repeat the bounds are not read
    rw [Flags.move, Reader.bind_eq]
    by_cases items : machine.branches.items.isEmpty = true
    · have refused : ∀ least most, machine.repeatLast least most = .error .nothingToRepeat := by
        intro least most
        rw [repeatLast, List.isEmpty_iff.mp items]
      rw [if_pos items]
      cases bounds machine.flags rest with
      | error fault => simp only [bind, Except.bind, follow, reduceCtorEq]
      | ok read => simp only [bind, Except.bind, follow, apply, refused, Except.map, reduceCtorEq]
    · rw [if_neg items]
      cases bounds machine.flags rest <;> rfl
  case h_13 =>
    rw [Flags.move] <;> first | rfl | assumption
  case h_3 => rfl
  case h_5 => rfl
  case h_6 => rfl
  case h_7 => rfl
  case h_10 => rfl
  case h_11 => rfl
  case h_12 => rfl

/-! ### Steps one after another -/

/-- What the machine and the text come to by steps. -/
inductive Reads : Machine → List Char → Machine → List Char → Prop where
  | done (machine : Machine) (text : List Char) : Reads machine text machine text
  | item {machine next last : Machine} {text rest others left : List Char} {c : Char} {move : Move}
      (first : machine.flags.skip text = c :: rest)
      (read : machine.flags.move c rest = .ok (move, others))
      (does : machine.Does move next) (later : Reads next others last left) :
      Reads machine text last left

variable {machine next last : Machine} {text rest left : List Char}

theorem Reads.trans {middle : Machine} {between : List Char}
    (before : Reads machine text middle between) (after : Reads middle between last left) :
    Reads machine text last left := by
  induction before with
  | done => exact after
  | item first read does _ ih => exact .item first read does (ih after)

/-- A step where blanks count. -/
theorem Reads.plain {c : Char} {move : Move} {others : List Char}
    (plain : machine.flags = .plain) (read : Flags.plain.move c rest = .ok (move, others))
    (does : machine.Does move next) (later : Reads next others last left) :
    Reads machine (c :: rest) last left :=
  .item (by rw [plain]; rfl) (plain ▸ read) does later

/-- An item leaves less of the text. -/
theorem length_lt_of_item {c : Char} {move : Move} {others : List Char}
    (first : machine.flags.skip text = c :: rest)
    (read : machine.flags.move c rest = .ok (move, others)) : others.length < text.length := by
  have after := (machine.flags.isLocal_move c _ _ _ read).length_le
  have before := machine.flags.length_skip_le text
  rw [first, List.length_cons] at before
  omega

/-- **A text is read by steps until only blanks and comments are left.** -/
theorem run_eq_ok_iff {count : Nat} (enough : text.length ≤ count) :
    run count machine text = .ok last ↔
      ∃ left, Reads machine text last left ∧ last.flags.skip left = [] := by
  induction count generalizing machine text with
  | zero =>
    obtain rfl := List.eq_nil_of_length_eq_zero (Nat.le_zero.mp enough)
    constructor
    · intro ran
      cases ran
      exact ⟨[], .done last [], last.flags.skip_nil⟩
    · rintro ⟨left, reads, _⟩
      cases reads with
      | done => rfl
      | item first => exact nomatch machine.flags.skip_nil.symm.trans first
  | succ count ih =>
    constructor
    · intro ran
      rw [run] at ran
      split at ran
      case h_1 empty =>
        cases ran
        exact ⟨text, .done last text, empty⟩
      case h_2 c rest first =>
        split at ran
        case h_1 => exact nomatch ran
        case h_2 next others stepped =>
          obtain ⟨move, read, does⟩ := step_eq_ok_iff.mp stepped
          have shorter := length_lt_of_item first read
          obtain ⟨left, later, empty⟩ := (ih (by omega)).mp ran
          exact ⟨left, .item first read does later, empty⟩
    · rintro ⟨left, reads, empty⟩
      cases reads with
      | done => rw [run, empty]
      | item first read does later =>
        have shorter := length_lt_of_item first read
        rw [run, first]
        simp only [step_eq_ok_iff.mpr ⟨_, read, does⟩]
        exact (ih (by omega)).mpr ⟨left, later, empty⟩

/-- Reading goes on from what steps have come to. -/
theorem Reads.run_eq {count : Nat} (reads : Reads machine text last left)
    (enough : text.length ≤ count) :
    ∃ fewer, left.length ≤ fewer ∧ run count machine text = run fewer last left := by
  induction reads generalizing count with
  | done => exact ⟨count, enough, rfl⟩
  | item first read does later ih =>
    have shorter := length_lt_of_item first read
    cases count with
    | zero => omega
    | succ count =>
      obtain ⟨fewer, left, same⟩ := @ih count (by omega)
      refine ⟨fewer, left, ?_⟩
      rw [run, first]
      simp only [step_eq_ok_iff.mpr ⟨_, read, does⟩]
      exact same

theorem finish_eq_ok_iff {piece : Piece} :
    machine.finish = .ok piece ↔ machine.frames = [] ∧ machine.branches.piece = piece := by
  unfold finish
  split
  case isTrue closed =>
    exact ⟨fun same => ⟨List.isEmpty_iff.mp closed, Except.ok.inj same⟩, fun ⟨_, same⟩ => same ▸ rfl⟩
  case isFalse opened =>
    exact ⟨nofun, fun closed => (opened (List.isEmpty_iff.mpr closed.1)).elim⟩

end Machine

/-- A piece is within the limits of depth and memory. -/
def Piece.Fits (piece : Piece) : Prop := piece.depth ≤ maxDepth ∧ piece.totalCost ≤ maxCost

instance (piece : Piece) : Decidable piece.Fits :=
  inferInstanceAs (Decidable (_ ∧ _))

/-- **The text of a pattern is read to its end, and every group in it is closed.** -/
theorem readPiece_eq_ok_iff {text : List Char} {piece : Piece} :
    readPiece text = .ok piece ↔
      (∃ last left, Machine.Reads .start text last left ∧ last.flags.skip left = [] ∧
        last.frames = [] ∧ last.branches.piece = piece) ∧ piece.Fits := by
  have reads_iff : (∃ last left, Machine.Reads .start text last left ∧ last.flags.skip left = [] ∧
      last.frames = [] ∧ last.branches.piece = piece) ↔
      ∃ last, Machine.run text.length .start text = .ok last ∧ last.finish = .ok piece := by
    simp only [Machine.run_eq_ok_iff (Nat.le_refl text.length), Machine.finish_eq_ok_iff]
    constructor
    · exact fun ⟨last, left, reads, ended, closed⟩ => ⟨last, ⟨left, reads, ended⟩, closed⟩
    · exact fun ⟨last, ⟨left, reads, ended⟩, closed⟩ => ⟨last, left, reads, ended, closed⟩
  rw [reads_iff, readPiece]
  cases Machine.run text.length .start text with
  | error fault => exact iff_of_false nofun fun ⟨⟨_, ran, _⟩, _⟩ => nomatch ran
  | ok last =>
    simp only [Except.ok.injEq, exists_eq_left']
    dsimp only [bind, Except.bind]
    cases last.finish with
    | error fault => exact iff_of_false nofun fun found => nomatch found.1
    | ok found =>
      dsimp only
      by_cases deep : maxDepth < found.depth
      · rw [if_pos deep]
        refine iff_of_false nofun fun ⟨same, fits⟩ => ?_
        cases same
        exact Nat.not_lt_of_le fits.1 deep
      rw [if_neg deep]
      by_cases big : maxCost < found.totalCost
      · rw [if_pos big]
        refine iff_of_false nofun fun ⟨same, fits⟩ => ?_
        cases same
        exact Nat.not_lt_of_le fits.2 big
      · rw [if_neg big]
        refine ⟨fun same => ?_, fun same => same.1⟩
        cases same
        exact ⟨rfl, Nat.le_of_not_lt deep, Nat.le_of_not_lt big⟩

/-! ### Bounds in order -/

namespace Piece

/-- Pieces that are joined two at a time keep what each joint keeps. -/
theorem isOrdered_foldl {join : Pattern → Pattern → Pattern} {pieces : List Piece}
    (kept : ∀ {first second : Pattern}, first.IsOrdered → second.IsOrdered →
      (join first second).IsOrdered)
    {whole : Pattern} (start : whole.IsOrdered)
    (ordered : ∀ piece ∈ pieces, piece.pattern.IsOrdered) :
    (pieces.foldl (fun whole piece => join whole piece.pattern) whole).IsOrdered := by
  induction pieces generalizing whole with
  | nil => exact start
  | cons piece rest ih =>
    obtain ⟨first, others⟩ := List.forall_mem_cons.mp ordered
    exact ih (kept start first) others

theorem isOrdered_sequence {pieces : List Piece}
    (ordered : ∀ piece ∈ pieces, piece.pattern.IsOrdered) :
    (sequence pieces).pattern.IsOrdered := by
  match pieces with
  | [] => trivial
  | [piece] => exact ordered piece List.mem_cons_self
  | piece :: next :: rest =>
    obtain ⟨first, others⟩ := List.forall_mem_cons.mp ordered
    exact isOrdered_foldl And.intro first others

theorem isOrdered_choice {pieces : List Piece}
    (ordered : ∀ piece ∈ pieces, piece.pattern.IsOrdered) :
    (choice pieces).pattern.IsOrdered := by
  match pieces with
  | [] => trivial
  | [piece] => exact ordered piece List.mem_cons_self
  | piece :: next :: rest =>
    obtain ⟨first, others⟩ := List.forall_mem_cons.mp ordered
    exact isOrdered_foldl And.intro first others

theorem isOrdered_repetition {piece : Piece} {least : Nat} {most : Option Nat}
    (order : ∀ limit ∈ most, least ≤ limit) (ordered : piece.pattern.IsOrdered) :
    (piece.repetition least most).pattern.IsOrdered := by
  unfold repetition
  split
  case isTrue => trivial
  case isFalse =>
    split
    case isTrue => exact ordered
    case isFalse => exact ⟨ordered, order⟩

end Piece

/-- The bounds of all repetitions read so far are in order. -/
def Branches.IsOrdered (branches : Branches) : Prop :=
  ∀ piece ∈ branches.items ++ branches.finished, piece.pattern.IsOrdered

theorem Branches.IsOrdered.piece {branches : Branches} (ordered : branches.IsOrdered) :
    branches.piece.pattern.IsOrdered := by
  refine Piece.isOrdered_choice fun piece member => ?_
  obtain done | last := List.mem_append.mp member
  · exact ordered piece (List.mem_append_right _ (List.mem_reverse.mp done))
  · obtain rfl := List.mem_singleton.mp last
    exact Piece.isOrdered_sequence fun piece member =>
      ordered piece (List.mem_append_left _ (List.mem_reverse.mp member))

theorem Branches.IsOrdered.add {branches : Branches} {piece : Piece}
    (ordered : branches.IsOrdered) (first : piece.pattern.IsOrdered) :
    (branches.add piece).IsOrdered :=
  List.forall_mem_cons.mpr ⟨first, ordered⟩

theorem Branches.IsOrdered.split {branches : Branches} (ordered : branches.IsOrdered) :
    branches.split.IsOrdered :=
  List.forall_mem_cons.mpr ⟨Piece.isOrdered_sequence fun piece member =>
      ordered piece (List.mem_append_left _ (List.mem_reverse.mp member)),
    fun piece member => ordered piece (List.mem_append_right _ member)⟩

/-- The bounds of all repetitions in a move are in order. -/
def Move.IsOrdered : Move → Prop
  | add piece => piece.pattern.IsOrdered
  | repeatLast least most => ∀ limit ∈ most, least ≤ limit
  | _ => True

theorem isOrdered_atom (atom : Atom) : atom.piece.pattern.IsOrdered := by
  cases atom <;> trivial

theorem Flags.isOrdered_of_move {flags : Flags} {c : Char} {rest left : List Char} {move : Move}
    (read : flags.move c rest = .ok (move, left)) : move.IsOrdered := by
  unfold Flags.move at read
  split at read
  case h_1 =>
    obtain ⟨opened, _, _, same⟩ := Reader.of_bind read
    cases same
    trivial
  case h_4 =>
    obtain ⟨chars, _, _, same⟩ := Reader.of_bind read
    cases same
    trivial
  case h_8 =>
    obtain ⟨⟨least, most⟩, _, found, same⟩ := Reader.of_bind read
    cases same
    exact le_of_bounds found
  case h_9 =>
    obtain ⟨atom, _, _, same⟩ := Reader.of_bind read
    cases same
    exact isOrdered_atom atom
  case h_5 => cases read; exact fun limit _ => Nat.zero_le limit
  case h_6 | h_7 => cases read; exact fun limit absent => (Option.not_mem_none limit absent).elim
  case h_13 => cases read; exact isOrdered_atom _
  all_goals cases read; trivial

namespace Machine

/-- The bounds of all repetitions read so far, in every open group, are in order. -/
def IsOrdered (machine : Machine) : Prop :=
  machine.branches.IsOrdered ∧ ∀ frame ∈ machine.frames, frame.outer.IsOrdered

theorem IsOrdered.does {machine next : Machine} {move : Move} (ordered : machine.IsOrdered)
    (order : move.IsOrdered) (does : machine.Does move next) : next.IsOrdered := by
  obtain ⟨here, around⟩ := ordered
  cases does with
  | add => exact ⟨here.add order, around⟩
  | flags => exact ⟨here, around⟩
  | group | numbered | named =>
    exact ⟨fun _ absent => (List.not_mem_nil absent).elim, List.forall_mem_cons.mpr ⟨here, around⟩⟩
  | close opened =>
    obtain ⟨outer, around⟩ := List.forall_mem_cons.mp (opened ▸ around)
    refine ⟨outer.add ?_, around⟩
    unfold closed
    split <;> exact here.piece
  | split => exact ⟨here.split, around⟩
  | repeatLast least most last =>
    rw [Branches.IsOrdered, last] at here
    obtain ⟨piece, others⟩ := List.forall_mem_cons.mp here
    exact ⟨List.forall_mem_cons.mpr ⟨Piece.isOrdered_repetition order piece, others⟩, around⟩

theorem IsOrdered.of_reads {machine last : Machine} {text left : List Char}
    (ordered : machine.IsOrdered) (reads : Reads machine text last left) : last.IsOrdered := by
  induction reads with
  | done => exact ordered
  | item _ read does _ ih => exact ih (ordered.does (Flags.isOrdered_of_move read) does)

end Machine

theorem isOrdered_of_readPiece {text : List Char} {piece : Piece}
    (read : readPiece text = .ok piece) : piece.pattern.IsOrdered := by
  obtain ⟨⟨last, left, reads, _, _, rfl⟩, _⟩ := readPiece_eq_ok_iff.mp read
  have start : Machine.start.IsOrdered :=
    ⟨fun _ absent => (List.not_mem_nil absent).elim, fun _ absent => (List.not_mem_nil absent).elim⟩
  exact (start.of_reads reads).1.piece

/-- **The bounds of all repetitions of a pattern are in order.** -/
theorem isOrdered_of_parse {text : String} {pattern : Pattern}
    (parsed : parse text = .ok pattern) : pattern.IsOrdered := by
  unfold parse at parsed
  cases read : readPiece text.toList with
  | error fault => rw [read] at parsed; exact nomatch parsed
  | ok piece =>
    rw [read] at parsed
    cases parsed
    exact isOrdered_of_readPiece read

end Pattern

end Gatehouse
