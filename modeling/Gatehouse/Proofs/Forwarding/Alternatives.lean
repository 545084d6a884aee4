/-
**Patterns given as a list.**

A list of patterns is set into one text, each pattern in a group of its own, and the whole between
the tests for both ends. The text is read as what it is meant to be: a choice between the patterns,
in which a pattern means what it means alone.

* `Forwarding.SideBySide`: what patterns need to stand side by side;
* `Forwarding.reads_alternatives`: the alternatives are read one after another;
* **`Forwarding.wholeText_alternatives`**: the text of a list is a pattern, and it matches the whole
  texts that any of the patterns matches;
* `Forwarding.Lists`: a setting lists such patterns;
* **`Forwarding.listed_proxies`**: what such a setting means; `Forwarding.misread_lists`: lists of
  patterns that mean something else, or nothing at all.
-/

import Gatehouse.Forwarding.Settings
import Gatehouse.Proofs.Pattern.Groups

namespace Gatehouse

namespace Pattern

/-! ### Choices -/

theorem matchesWhole_foldl_or {whole : Pattern} {pieces : List Piece} {text : String} :
    (pieces.foldl (fun whole piece => .or whole piece.pattern) whole).MatchesWhole text ↔
      whole.MatchesWhole text ∨ ∃ piece ∈ pieces, piece.pattern.MatchesWhole text := by
  induction pieces generalizing whole with
  | nil => simp
  | cons piece rest ih =>
    rw [List.foldl_cons, ih, matchesWhole_or_iff, or_assoc]
    simp

/-- A choice matches what any of its pieces matches. -/
theorem matchesWhole_choice_iff {pieces : List Piece} (nonempty : pieces ≠ []) {text : String} :
    (Piece.choice pieces).pattern.MatchesWhole text ↔
      ∃ piece ∈ pieces, piece.pattern.MatchesWhole text := by
  match pieces with
  | [] => exact (nonempty rfl).elim
  | [piece] => simp [Piece.choice]
  | piece :: next :: rest =>
    rw [Piece.choice]
    · rw [matchesWhole_foldl_or]
      simp
    · exact fun single => nomatch single

end Pattern

namespace Forwarding

open Pattern

/-- The piece of a choice between the tests for both ends of a text. -/
def wholeChoice (pieces : List Piece) : Piece :=
  .sequence [.look .start, .choice pieces, .look .finish]

/-- What patterns need to stand side by side, each in a group inside of another one: none ends inside
a comment, none opens more groups than there is room for, and no two of them name a group alike. -/
structure SideBySide (patterns : List String) : Prop where
  valid : ∀ pattern ∈ patterns, IsPattern pattern
  ends : ∀ pattern ∈ patterns, ¬EndsInComment pattern
  nested : ∀ pattern ∈ patterns, nesting pattern + 2 ≤ maxDepth
  apart : patterns.Pairwise fun first second => ∀ name ∈ groupNames second, name ∉ groupNames first

theorem SideBySide.tail {pattern : String} {others : List String}
    (together : SideBySide (pattern :: others)) : SideBySide others :=
  ⟨fun _ member => together.valid _ (List.mem_cons_of_mem _ member),
    fun _ member => together.ends _ (List.mem_cons_of_mem _ member),
    fun _ member => together.nested _ (List.mem_cons_of_mem _ member),
    (List.pairwise_cons.mp together.apart).2⟩

/-- The text of a list of patterns. -/
def alternatives (patterns : List String) : String := "|".intercalate (patterns.map alternative)

theorem toList_alternative (pattern : String) :
    (alternative pattern).toList = '(' :: '?' :: ':' :: (pattern.toList ++ [')']) := by
  rw [alternative, String.toList_append, String.toList_append]
  rfl

theorem toList_alternatives_single (pattern : String) :
    (alternatives [pattern]).toList = '(' :: '?' :: ':' :: (pattern.toList ++ [')']) := by
  rw [alternatives, List.map_singleton, String.intercalate_singleton, toList_alternative]

theorem toList_alternatives_cons (pattern next : String) (others : List String) :
    (alternatives (pattern :: next :: others)).toList = '(' :: '?' :: ':' ::
      (pattern.toList ++ ')' :: '|' :: (alternatives (next :: others)).toList) := by
  rw [alternatives, List.map_cons, List.map_cons, String.intercalate_cons_cons,
    String.toList_append, String.toList_append, toList_alternative, ← List.map_cons]
  simp only [List.cons_append, List.append_assoc, List.nil_append]
  rfl

theorem mem_alternatives (pattern : String) (others : List String) :
    '(' ∈ (alternatives (pattern :: others)).toList := by
  cases others with
  | nil => rw [toList_alternatives_single]; exact List.mem_cons_self
  | cons next others => rw [toList_alternatives_cons]; exact List.mem_cons_self

/-- The alternatives are read one after another. -/
theorem reads_alternatives {machine : Machine} {pattern : String} {others : List String}
    (after : List Char) (plain : machine.flags = .plain) (fresh : machine.branches.items = [])
    (deep : machine.frames.length = 1) (together : SideBySide (pattern :: others))
    (unused : ∀ member ∈ pattern :: others, ∀ name ∈ groupNames member, name ∉ machine.names) :
    ∃ last, Machine.Reads machine ((alternatives (pattern :: others)).toList ++ after) last after ∧
      last.flags = machine.flags ∧ last.frames = machine.frames ∧ last.branches.piece =
        .choice (machine.branches.finished.reverse ++ (pattern :: others).map pieceOf) := by
  induction others generalizing machine pattern with
  | nil =>
    have nested := together.nested pattern List.mem_cons_self
    have read := reads_group after (together.valid pattern List.mem_cons_self)
      (together.ends pattern List.mem_cons_self) plain (by omega)
      (unused pattern List.mem_cons_self)
    have text : (alternatives [pattern]).toList ++ after =
        '(' :: '?' :: ':' :: (pattern.toList ++ ')' :: after) := by
      rw [toList_alternatives_single]
      simp only [List.cons_append, List.append_assoc, List.nil_append]
    rw [text]
    refine ⟨_, read, rfl, rfl, ?_⟩
    rw [Branches.piece, Branches.add, fresh]
    rfl
  | cons next others ih =>
    have nested := together.nested pattern List.mem_cons_self
    have read := reads_group ('|' :: ((alternatives (next :: others)).toList ++ after))
      (together.valid pattern List.mem_cons_self) (together.ends pattern List.mem_cons_self) plain
      (by omega) (unused pattern List.mem_cons_self)
    have text : (alternatives (pattern :: next :: others)).toList ++ after = '(' :: '?' :: ':' ::
        (pattern.toList ++ ')' :: '|' :: ((alternatives (next :: others)).toList ++ after)) := by
      rw [toList_alternatives_cons]
      simp only [List.cons_append, List.append_assoc]
    -- behind the bar another alternative begins
    let begun : Machine := { machine with
      branches := (machine.branches.add (pieceOf pattern)).split,
      names := groupNames pattern ++ machine.names }
    have unused' : ∀ member ∈ next :: others, ∀ name ∈ groupNames member, name ∉ begun.names := by
      intro member listed name given used
      obtain here | before := List.mem_append.mp used
      · exact (List.pairwise_cons.mp together.apart).1 member listed name given here
      · exact unused member (List.mem_cons_of_mem _ listed) name given before
    obtain ⟨last, later, flags, frames, piece⟩ := @ih begun next plain rfl deep together.tail unused'
    refine ⟨last, text ▸ read.trans (.plain plain rfl .split later), flags, frames, ?_⟩
    rw [piece]
    simp only [begun, Branches.split, Branches.add, fresh, Piece.sequence, List.reverse_cons,
      List.reverse_nil, List.nil_append, List.append_assoc, List.map_cons, List.cons_append]

/-- The text of a list of patterns between the tests for both ends. -/
theorem readPiece_alternatives {patterns : List String} (nonempty : patterns ≠ [])
    (together : SideBySide patterns) (fits : (wholeChoice (patterns.map pieceOf)).Fits) :
    readPiece ("^(?:" ++ alternatives patterns ++ ")$").toList =
      .ok (wholeChoice (patterns.map pieceOf)) := by
  obtain ⟨pattern, others, rfl⟩ := List.exists_cons_of_ne_nil nonempty
  have text : ("^(?:" ++ alternatives (pattern :: others) ++ ")$").toList =
      '^' :: '(' :: '?' :: ':' :: ((alternatives (pattern :: others)).toList ++ [')', '$']) := by
    rw [String.toList_append, String.toList_append]
    rfl
  let frame : Frame := ⟨Branches.start.add (.look .start), .plain, false⟩
  let inside : Machine := ⟨.start, .plain, [frame], []⟩
  obtain ⟨last, reads, flags, frames, piece⟩ := @reads_alternatives inside pattern others [')', '$']
    rfl rfl rfl together fun _ _ _ _ => List.not_mem_nil
  have closes : last.Does .close { last with
      branches := frame.outer.add last.branches.piece, flags := .plain, frames := [] } :=
    .close frames
  rw [text]
  refine readPiece_eq_ok_iff.mpr ⟨⟨_, [], .plain rfl rfl (.add _) (.plain rfl rfl
    (.group .plain (by decide)) (reads.trans (.plain flags rfl closes
      (.plain rfl rfl (.add _) (.done _ _))))), rfl, rfl, ?_⟩, fits⟩
  show Piece.choice [.sequence [.look .start, last.branches.piece, .look .finish]] = _
  rw [piece]
  rfl

/-- **The text of a list of patterns is a pattern**, and it matches the texts that one of the
patterns matches as a whole. -/
theorem wholeText_alternatives {patterns : List String} (nonempty : patterns ≠ [])
    (together : SideBySide patterns) (fits : (wholeChoice (patterns.map pieceOf)).Fits) :
    ∃ whole, wholeText (alternatives patterns) = .ok whole ∧
      ∀ text, whole.isMatch text = true ↔ ∃ pattern ∈ patterns, Covers pattern text := by
  refine ⟨(Piece.choice (patterns.map pieceOf)).pattern.between, ?_, fun text => ?_⟩
  · rw [wholeText, Pattern.parse_eq_ok_iff.mpr
      ⟨_, readPiece_alternatives nonempty together fits, rfl⟩]
    rfl
  · have ordered : (Piece.choice (patterns.map pieceOf)).pattern.IsOrdered := by
      refine Piece.isOrdered_choice fun piece member => ?_
      obtain ⟨pattern, listed, rfl⟩ := List.mem_map.mp member
      exact isOrdered_of_parse (together.valid pattern listed).reads.1
    rw [isMatch_between_iff ordered,
      matchesWhole_choice_iff fun ended => nonempty (List.map_eq_nil_iff.mp ended)]
    constructor
    · rintro ⟨piece, member, found⟩
      obtain ⟨pattern, listed, rfl⟩ := List.mem_map.mp member
      exact ⟨pattern, listed, _, (together.valid pattern listed).reads.1, found⟩
    · rintro ⟨pattern, listed, found, parsed, covers⟩
      cases (together.valid pattern listed).reads.1.symm.trans parsed
      exact ⟨_, List.mem_map_of_mem listed, covers⟩

/-! ### Settings -/

/-- The pattern of internal proxies; without one, that of private networks. -/
def internalOf (pattern : Option String) : Except ForwardingError Pattern :=
  match pattern with
  | some pattern => wholeText pattern
  | none => .ok privatePattern

theorem ofSettings_eq {settings : Settings} {internal : Pattern} {trusted : Option Pattern}
    (enabled : settings.flag (path "enabled") true = true)
    (inside : internalOf (pattern? settings (path "internalProxies")) = .ok internal)
    (outside : trustedOf (pattern? settings (path "trustedProxies")) = .ok trusted) :
    ofSettings settings = .ok {
      enabled := true
      internal := internal
      trusted := trusted
      proxiesHeader := headerAt settings (path "proxiesHeader") defaultProxiesHeader
      remoteHeader := headerAt settings (path "remoteIpHeader") defaultRemoteHeader } := by
  unfold ofSettings
  rw [enabled, outside]
  unfold internalOf at inside
  cases given : pattern? settings (path "internalProxies") with
  | none | some =>
    rw [given] at inside
    dsimp only at inside ⊢
    rw [inside]
    rfl

/-- A setting lists patterns that can stand side by side, within the limits of depth and memory. -/
structure Lists (settings : Settings) (name : String) (patterns : List String) : Prop where
  listed : ∃ items, settings.get? (path name) = some (.list items) ∧
    items.filterMap Tree.scalarText? = patterns
  together : SideBySide patterns
  fits : (wholeChoice (patterns.map pieceOf)).Fits

theorem Lists.pattern?_eq {settings : Settings} {name : String} {patterns : List String}
    (lists : Lists settings name patterns) :
    pattern? settings (path name) =
      if patterns = [] then none else some (alternatives patterns) := by
  obtain ⟨items, found, rfl⟩ := lists.listed
  have texts : settings.texts (path name) = items.filterMap Tree.scalarText? := by
    rw [Settings.texts, found]
  rw [pattern?, found]
  dsimp only
  rw [texts]
  split
  case h_1 empty => rw [if_pos empty]
  case h_2 nonempty => rw [if_neg nonempty]; rfl

/-- A text with a character that is not blank is not blank. -/
theorem trim_ne_empty {text : String} {c : Char} (member : c ∈ text.toList)
    (visible : Text.isBlank c = false) : Text.trim text ≠ "" := by
  have kept : ∀ {list : List Char}, c ∈ list → c ∈ list.dropWhile Text.isBlank := by
    intro list member
    induction list with
    | nil => exact member
    | cons d rest ih =>
      rw [List.dropWhile_cons]
      split
      case isFalse => exact member
      case isTrue blank =>
        obtain rfl | later := List.mem_cons.mp member
        · exact (Bool.false_ne_true (visible.symm.trans blank)).elim
        · exact ih later
  have inside : c ∈ (Text.trim text).toList := by
    rw [Text.trim, String.toList_ofList, Text.trimBoth, Text.trimRight, List.mem_reverse]
    exact kept (List.mem_reverse.mpr (kept member))
  intro blank
  rw [blank] at inside
  exact List.not_mem_nil inside

/-- A list of internal proxies; an empty one counts as none, so that private networks are meant. -/
theorem Lists.internalOf_eq_ok {settings : Settings} {patterns : List String}
    (lists : Lists settings "internalProxies" patterns) :
    ∃ internal, internalOf (pattern? settings (path "internalProxies")) = .ok internal ∧
      ∀ address, internal.isMatch address = true ↔
        (∃ pattern ∈ patterns, Covers pattern address) ∨
          patterns = [] ∧ privatePattern.isMatch address = true := by
  rw [lists.pattern?_eq]
  split
  case isTrue nothing => exact ⟨privatePattern, rfl, fun address => by simp [nothing]⟩
  case isFalse nonempty =>
    obtain ⟨whole, read, covers⟩ := wholeText_alternatives nonempty lists.together lists.fits
    exact ⟨whole, read, fun address => by rw [covers, or_iff_left fun default => nonempty default.1]⟩

/-- A list of trusted proxies; an empty one counts as none. -/
theorem Lists.trustedOf_eq_ok {settings : Settings} {patterns : List String}
    (lists : Lists settings "trustedProxies" patterns) :
    ∃ trusted, trustedOf (pattern? settings (path "trustedProxies")) = .ok trusted ∧
      ∀ address, (trusted.any fun pattern => pattern.isMatch address) = true ↔
        ∃ pattern ∈ patterns, Covers pattern address := by
  rw [lists.pattern?_eq]
  split
  case isTrue nothing => exact ⟨none, rfl, fun address => by simp [nothing]⟩
  case isFalse nonempty =>
    obtain ⟨whole, read, covers⟩ := wholeText_alternatives nonempty lists.together lists.fits
    refine ⟨some whole, ?_, fun address => by rw [Option.any_some, covers]⟩
    have visible : Text.trim (alternatives patterns) ≠ "" := by
      obtain ⟨pattern, others, rfl⟩ := List.exists_cons_of_ne_nil nonempty
      exact trim_ne_empty (mem_alternatives pattern others) (by decide)
    rw [trustedOf, if_neg visible, read]
    rfl

/-- **Proxies given as lists.** Unless it is switched off, a document that lists patterns which can
stand side by side is accepted, if what it says of the other kind of proxies is. The internal proxies
are then the addresses that one of the patterns matches as a whole, or those of private networks if
the list is empty. The trusted ones are those that one of their patterns matches; for an empty list
there are none. -/
theorem listed_proxies {settings : Settings} {patterns : List String}
    (enabled : settings.flag (path "enabled") true = true) :
    ((∃ trusted, trustedOf (pattern? settings (path "trustedProxies")) = .ok trusted) →
      Lists settings "internalProxies" patterns →
      ∃ forwarding, ofSettings settings = .ok forwarding ∧
        ∀ address, forwarding.isInternal address = true ↔
          (∃ pattern ∈ patterns, Covers pattern address) ∨
            patterns = [] ∧ privatePattern.isMatch address = true) ∧
    ((∃ internal, internalOf (pattern? settings (path "internalProxies")) = .ok internal) →
      Lists settings "trustedProxies" patterns →
      ∃ forwarding, ofSettings settings = .ok forwarding ∧
        ∀ address, forwarding.isTrusted address = true ↔
          ∃ pattern ∈ patterns, Covers pattern address) := by
  constructor
  · rintro ⟨trusted, outside⟩ lists
    obtain ⟨internal, inside, covers⟩ := lists.internalOf_eq_ok
    exact ⟨_, ofSettings_eq enabled inside outside, covers⟩
  · rintro ⟨internal, inside⟩ lists
    obtain ⟨trusted, outside, covers⟩ := lists.trustedOf_eq_ok
    exact ⟨_, ofSettings_eq enabled inside outside, covers⟩

/-- A document that lists internal and trusted proxies. -/
def listing (internal trusted : List String) : Settings :=
  .ofTree (.object [("dynamic.http.xff", .object [
    ("internalProxies", .list (internal.map .text)),
    ("trustedProxies", .list (trusted.map .text))])])

/-- Two networks of internal proxies and two of trusted ones. -/
theorem listed_proxies_networks :
    ∃ forwarding, ofSettings (listing [dotted ["10", "0", "0", part], dotted ["172", "16", "0", part]]
        [dotted ["198", "51", "100", part], dotted ["192", "0", "2", part]]) = .ok forwarding ∧
      forwarding.isInternal "172.16.0.4" = true ∧ forwarding.isInternal "10.1.0.1" = false ∧
      forwarding.isTrusted "192.0.2.8" = true ∧ forwarding.isTrusted "192.0.3.8" = false := by
  let internal : List String := [dotted ["10", "0", "0", part], dotted ["172", "16", "0", part]]
  let trusted : List String := [dotted ["198", "51", "100", part], dotted ["192", "0", "2", part]]
  have enabled : (listing internal trusted).flag (path "enabled") true = true := by decide +kernel
  have inner : Lists (listing internal trusted) "internalProxies" internal :=
    ⟨⟨internal.map .text, by decide +kernel, by decide +kernel⟩,
      ⟨by decide +kernel, by decide +kernel, by decide +kernel, by decide +kernel⟩,
      by decide +kernel⟩
  have outer : Lists (listing internal trusted) "trustedProxies" trusted :=
    ⟨⟨trusted.map .text, by decide +kernel, by decide +kernel⟩,
      ⟨by decide +kernel, by decide +kernel, by decide +kernel, by decide +kernel⟩,
      by decide +kernel⟩
  obtain ⟨found, inside, -⟩ := inner.internalOf_eq_ok
  obtain ⟨passed, outside, -⟩ := outer.trustedOf_eq_ok
  obtain ⟨forwarding, accepted, isInternal⟩ := (listed_proxies enabled).1 ⟨passed, outside⟩ inner
  obtain ⟨same, again, isTrusted⟩ := (listed_proxies enabled).2 ⟨found, inside⟩ outer
  obtain rfl : forwarding = same := Except.ok.inj (accepted.symm.trans again)
  refine ⟨forwarding, accepted, (isInternal _).mpr (.inl (by decide +kernel)),
    Bool.eq_false_iff.mpr fun within => ?_, (isTrusted _).mpr (by decide +kernel),
    Bool.eq_false_iff.mpr fun within => ?_⟩
  · obtain covered | empty := (isInternal _).mp within
    · exact absurd covered (by decide +kernel)
    · exact List.cons_ne_nil _ _ empty.1
  · exact absurd ((isTrusted _).mp within) (by decide +kernel)

/-- A pattern inside of numbered groups. -/
def nested (count : Nat) : String :=
  String.ofList (List.replicate count '(' ++ '1' :: List.replicate count ')')

/-- **Lists that mean something else.** No listed pattern makes `10.0.0.1` an internal proxy, but
with an empty list it is one; nor does one of these two patterns match `10.0.0.17`, but the comment
that ends the first one goes on into the second. And lists of patterns are refused in which a comment
takes in the closing parenthesis, a name is given twice, there are too many groups inside of one
another, or the patterns together are too big. -/
theorem misread_lists :
    (∃ forwarding, ofSettings (listing [] []) = .ok forwarding ∧
      forwarding.isInternal "10.0.0.1" = true) ∧
    ((∀ pattern ∈ ["(?x)10\\.0\\.0\\.1#", "\n7"], IsPattern pattern ∧ ¬Covers pattern "10.0.0.17") ∧
      ∃ forwarding, ofSettings (listing ["(?x)10\\.0\\.0\\.1#", "\n7"] []) = .ok forwarding ∧
        forwarding.isInternal "10.0.0.17" = true) ∧
    ∀ patterns ∈ [["(?x)1#"], ["(?<a>1)", "(?<a>2)"], [nested 49],
        ["1{200000}", "2{200000}"]],
      (∀ pattern ∈ patterns, IsPattern pattern) ∧
        ∃ error, ofSettings (listing patterns []) = .error error := by
  have accepts : ∀ {settings : Settings} {address : String},
      (ofSettings settings).toOption.any (·.isInternal address) = true →
      ∃ forwarding, ofSettings settings = .ok forwarding ∧ forwarding.isInternal address = true := by
    intro settings address found
    cases result : ofSettings settings with
    | error error => rw [result] at found; exact nomatch found
    | ok forwarding => rw [result] at found; exact ⟨forwarding, rfl, found⟩
  have refuses : ∀ {settings : Settings}, (ofSettings settings).toOption = none →
      ∃ error, ofSettings settings = .error error := by
    intro settings absent
    cases result : ofSettings settings with
    | error error => exact ⟨error, rfl⟩
    | ok forwarding => rw [result] at absent; exact nomatch absent
  refine ⟨accepts (by decide +kernel), ⟨by decide +kernel, accepts (by decide +kernel)⟩, ?_⟩
  simp only [List.forall_mem_cons]
  refine ⟨⟨by decide +kernel, refuses (by decide +kernel)⟩,
    ⟨by decide +kernel, refuses (by decide +kernel)⟩,
    ⟨by decide +kernel, refuses (by decide +kernel)⟩,
    ⟨by decide +kernel, refuses (by decide +kernel)⟩, fun _ absent => (List.not_mem_nil absent).elim⟩

end Forwarding

end Gatehouse
