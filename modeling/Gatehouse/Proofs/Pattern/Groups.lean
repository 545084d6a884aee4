/-
**A pattern inside a group.**

What a pattern does to the machine by itself it does to the machine inside any open groups: it never
closes a group that it did not open. Three things can go wrong. Inside groups there is less room for
its own ones; a name it gives to a group may have been given before; and if its text ends inside a
comment, the comment takes in the parenthesis that closes the group.

* `Pattern.EndsInComment`, `Pattern.nesting`, `Pattern.groupNames`: what matters about a pattern;
* `Pattern.Machine.within`: the machine inside open groups; `Pattern.Machine.Does.within`;
* **`Pattern.Machine.Reads.before_closing`**: a pattern is read up to the parenthesis behind it;
* **`Pattern.reads_group`**: a pattern in a group of its own adds its piece.
-/

import Gatehouse.Proofs.Pattern.Moves

namespace Gatehouse

namespace Pattern

namespace Machine

variable {machine next last : Machine} {text left : List Char} {move : Move}

/-! ### Inside groups -/

/-- The machine inside open groups, after groups with names. -/
def within (machine : Machine) (frames : List Frame) (names : List (List Char)) : Machine :=
  { machine with frames := machine.frames ++ frames, names := machine.names ++ names }

theorem Does.names_subset (does : machine.Does move next) : machine.names ⊆ next.names := by
  cases does with
  | named => exact List.subset_cons_self ..
  | _ => exact List.Subset.refl _

theorem Reads.names_subset (reads : Reads machine text last left) :
    machine.names ⊆ last.names := by
  induction reads with
  | done => exact List.Subset.refl _
  | item _ _ does _ ih => exact List.Subset.trans does.names_subset ih

/-- A move inside open groups. -/
theorem Does.within {frames : List Frame} {names : List (List Char)} (does : machine.Does move next)
    (room : next.frames.length + frames.length ≤ maxDepth)
    (fresh : ∀ name ∈ next.names, name ∉ names) :
    (machine.within frames names).Does move (next.within frames names) := by
  have enter : machine.frames.length + 1 + frames.length ≤ maxDepth →
      (machine.within frames names).frames.length < maxDepth := by
    rw [Machine.within, List.length_append]
    omega
  cases does with
  | add piece => exact .add piece
  | flags flags => exact .flags flags
  | group flags => exact .group flags (enter room)
  | numbered => exact .numbered (enter room)
  | named unused =>
    refine .named (fun used => ?_) (enter room)
    exact (List.mem_append.mp used).elim unused (fresh _ List.mem_cons_self)
  | close opened => exact .close (by rw [Machine.within, opened, List.cons_append])
  | split => exact .split
  | repeatLast least most last => exact .repeatLast least most last

/-- **A pattern is read up to the parenthesis behind it**, inside any open groups, unless it ends
inside a comment, which takes the parenthesis in. -/
theorem Reads.before_closing {frames : List Frame} {names : List (List Char)}
    (reads : Reads machine text last left) (ended : last.flags.skip left = [])
    (room : ∀ middle between, Reads machine text middle between →
      middle.frames.length + frames.length ≤ maxDepth)
    (fresh : ∀ name ∈ last.names, name ∉ names) :
    (∀ after, ∃ left', Reads (machine.within frames names) (text ++ ')' :: after)
        (last.within frames names) left' ∧ last.flags.skip left' = ')' :: after) ∨
      ∃ left', Reads machine (text ++ [')']) last left' ∧ last.flags.skip left' = [] := by
  induction reads with
  | done machine text =>
    refine (Flags.skip_before ended).imp (fun all after => ?_) fun taken => ?_
    · exact ⟨text ++ ')' :: after, .done _ _, all after⟩
    · exact ⟨text ++ [')'], .done _ _, taken⟩
  | @item machine next last text rest others left c move first read does later ih =>
    have longer : ∀ after, machine.flags.skip (text ++ after) = c :: (rest ++ after) := by
      intro after
      rw [Flags.skip_append (by rw [first]; exact List.cons_ne_nil _ _), first, List.cons_append]
    have within : (machine.within frames names).Does move (next.within frames names) :=
      does.within (room _ _ (.item first read does (.done _ _))) fun name given =>
        fresh name (later.names_subset given)
    obtain all | ⟨rfl, taken⟩ := (machine.flags.isLocal_move c _ _ _ read).before
    · have further := ih ended (fun middle between reads =>
        room middle between (.item first read does reads)) fresh
      refine further.imp (fun kept after => ?_) fun ⟨left', reads, taken⟩ => ?_
      · obtain ⟨left', reads, rest⟩ := kept after
        exact ⟨left', .item (longer _) (all after) within reads, rest⟩
      · exact ⟨left', .item (longer _) (all []) does reads, taken⟩
    · -- the last item has taken the parenthesis in, and nothing follows it
      cases later with
      | item first => exact nomatch next.flags.skip_nil.symm.trans first
      | done => exact .inr ⟨[], .item (longer _) taken does (.done _ _), ended⟩

end Machine

/-! ### What matters about a pattern -/

/-- The greatest number of groups that are open at once while a text is read; the count bounds the
number of items. -/
def Machine.nesting : (count : Nat) → Machine → List Char → Nat
  | 0, machine, _ => machine.frames.length
  | count + 1, machine, text =>
    match machine.flags.skip text with
    | [] => machine.frames.length
    | c :: rest =>
      match machine.step c rest with
      | .error _ => machine.frames.length
      | .ok (next, others) => max machine.frames.length (nesting count next others)

theorem Machine.le_nesting {count : Nat} {machine last : Machine} {text left : List Char}
    (enough : text.length ≤ count) (reads : Reads machine text last left) :
    last.frames.length ≤ nesting count machine text := by
  induction reads generalizing count with
  | done machine text =>
    cases count with
    | zero => exact Nat.le_refl _
    | succ count =>
      rw [nesting]
      split
      · exact Nat.le_refl _
      · split
        · exact Nat.le_refl _
        · exact Nat.le_max_left ..
  | item first read does later ih =>
    have shorter := length_lt_of_item first read
    cases count with
    | zero => omega
    | succ count =>
      rw [nesting, first]
      simp only [step_eq_ok_iff.mpr ⟨_, read, does⟩]
      exact Nat.le_trans (ih (by omega)) (Nat.le_max_right ..)

/-- The greatest number of groups of a pattern that are open at once. -/
def nesting (text : String) : Nat := Machine.nesting text.length .start text.toList

/-- The names that a pattern gives to groups, the last one first. -/
def groupNames (text : String) : List (List Char) :=
  match Machine.run text.length .start text.toList with
  | .ok last => last.names
  | .error _ => []

/-- The piece of a text that is a pattern. -/
def pieceOf (text : String) : Piece := (readPiece text.toList).toOption.getD .empty

/-- A text is a pattern. -/
def IsPattern (text : String) : Prop := ∃ pattern, parse text = .ok pattern

instance (text : String) : Decidable (IsPattern text) :=
  match parsed : parse text with
  | .ok pattern => isTrue ⟨pattern, parsed⟩
  | .error _ => isFalse fun ⟨_, valid⟩ => nomatch parsed.symm.trans valid

/-- The text of a pattern ends inside a comment: it still is a pattern with a closing parenthesis
behind it, which the comment takes in. -/
def EndsInComment (text : String) : Prop := IsPattern (text ++ ")")

instance (text : String) : Decidable (EndsInComment text) :=
  inferInstanceAs (Decidable (IsPattern _))

/-- The pattern that a text is matches another text from its first character to its last. -/
def Covers (pattern text : String) : Prop :=
  ∃ found, parse pattern = .ok found ∧ found.MatchesWhole text

instance (pattern text : String) : Decidable (Covers pattern text) :=
  match parsed : parse pattern with
  | .ok found =>
    have ends_iff : text.length ∈ ends text.toList.toArray found 0 ↔ found.MatchesWhole text :=
      mem_ends_iff (isOrdered_of_parse parsed)
    decidable_of_iff (text.length ∈ ends text.toList.toArray found 0)
      ⟨fun covers => ⟨found, parsed, ends_iff.mp covers⟩, fun ⟨_, same, covers⟩ =>
        ends_iff.mpr (Except.ok.inj (parsed.symm.trans same) ▸ covers)⟩
  | .error _ => isFalse fun ⟨_, valid, _⟩ => nomatch parsed.symm.trans valid

theorem parse_eq_ok_iff {text : String} {pattern : Pattern} :
    parse text = .ok pattern ↔ ∃ piece, readPiece text.toList = .ok piece ∧
      piece.pattern = pattern := by
  unfold parse
  cases readPiece text.toList with
  | error fault => exact iff_of_false nofun fun ⟨_, absent, _⟩ => nomatch absent
  | ok piece =>
    exact ⟨fun same => ⟨piece, rfl, Except.ok.inj same⟩, fun ⟨_, found, same⟩ =>
      same ▸ Except.ok.inj found ▸ rfl⟩

/-- How a pattern is read. -/
theorem IsPattern.reads {text : String} (valid : IsPattern text) :
    parse text = .ok (pieceOf text).pattern ∧ (pieceOf text).Fits ∧
      ∃ last left, Machine.Reads .start text.toList last left ∧ last.flags.skip left = [] ∧
        last.frames = [] ∧ last.branches.piece = pieceOf text ∧ last.names = groupNames text := by
  obtain ⟨pattern, parsed⟩ := valid
  obtain ⟨piece, read, rfl⟩ := parse_eq_ok_iff.mp parsed
  have same : pieceOf text = piece := by rw [pieceOf, read]; rfl
  obtain ⟨⟨last, left, reads, ended, closed, found⟩, fits⟩ := readPiece_eq_ok_iff.mp read
  have ran : Machine.run text.length .start text.toList = .ok last :=
    (Machine.run_eq_ok_iff (Nat.le_of_eq String.length_toList)).mpr ⟨left, reads, ended⟩
  rw [same]
  exact ⟨parsed, fits, last, left, reads, ended, closed, found, by rw [groupNames, ran]⟩

/-- **A pattern in a group of its own adds its piece** and the names of its groups. -/
theorem reads_group {machine : Machine} {text : String} (after : List Char) (valid : IsPattern text)
    (ends : ¬EndsInComment text) (plain : machine.flags = .plain)
    (room : nesting text + machine.frames.length < maxDepth)
    (fresh : ∀ name ∈ groupNames text, name ∉ machine.names) :
    Machine.Reads machine ('(' :: '?' :: ':' :: (text.toList ++ ')' :: after))
      { machine with
        branches := machine.branches.add (pieceOf text), names := groupNames text ++ machine.names }
      after := by
  obtain ⟨parsed, fits, last, left, reads, ended, closed, found, names⟩ := valid.reads
  let frame : Frame := ⟨machine.branches, machine.flags, false⟩
  have opened : machine.Does (.enter (.plain .plain))
      (Machine.start.within (frame :: machine.frames) machine.names) := .group .plain (by omega)
  have roomy : ∀ middle between, Machine.Reads .start text.toList middle between →
      middle.frames.length + (frame :: machine.frames).length ≤ maxDepth := by
    intro middle between reads
    have deepest : middle.frames.length ≤ nesting text :=
      Machine.le_nesting (Nat.le_of_eq String.length_toList) reads
    rw [List.length_cons]
    omega
  obtain inside | ⟨left', reads, taken⟩ := reads.before_closing ended roomy (names ▸ fresh)
  · obtain ⟨left', reads, rest⟩ := inside after
    have innermost : (last.within (frame :: machine.frames) machine.names).frames =
        frame :: machine.frames := by
      rw [Machine.within, closed, List.nil_append]
    have closes : (last.within (frame :: machine.frames) machine.names).Does .close { machine with
        branches := machine.branches.add (pieceOf text),
        names := groupNames text ++ machine.names } := by
      rw [← found, ← names]
      exact .close innermost
    exact .plain plain rfl opened (reads.trans (.item rest rfl closes (.done _ _)))
  · -- otherwise the text would end inside a comment
    refine (ends ⟨(pieceOf text).pattern, parse_eq_ok_iff.mpr ⟨pieceOf text, ?_, rfl⟩⟩).elim
    rw [String.toList_append]
    exact readPiece_eq_ok_iff.mpr ⟨⟨last, left', reads, taken, closed, found⟩, fits⟩

/-- **A parenthesis that closes nothing** is an error. -/
theorem readPiece_of_stray {text left rest : List Char} {last : Machine}
    (reads : Machine.Reads .start text last left) (first : last.flags.skip left = ')' :: rest)
    (closed : last.frames = []) : readPiece text = .error .groupNotOpen := by
  obtain ⟨fewer, enough, same⟩ := reads.run_eq (Nat.le_refl _)
  have nonempty : left.length ≠ 0 := by
    intro empty
    rw [List.eq_nil_of_length_eq_zero empty, Flags.skip_nil] at first
    cases first
  have stuck : Machine.run fewer last left = .error .groupNotOpen := by
    obtain ⟨fewer, rfl⟩ := Nat.exists_eq_succ_of_ne_zero (n := fewer) (by omega)
    rw [Machine.run, first]
    simp only [Machine.step, Machine.close, closed]
    rfl
  rw [readPiece, same.trans stuck]
  rfl

end Pattern

end Gatehouse
