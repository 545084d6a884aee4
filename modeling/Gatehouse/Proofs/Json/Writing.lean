/-
**Written trees are read back.**

A JSON text is read in two steps: it is cut into tokens, and a machine builds a value from them. A
text spells a value if both steps give it inside of any larger text. Words, literals, arrays and
objects spell their values as soon as their parts do, and so does the compact text of a tree.

* `Json.Cuts`, `Json.Builds`, `Json.Spells`: what the two steps make of a part of a text;
* `Json.Spells.array`, `Json.Spells.object`: the parts of a text make up the whole;
* `Tree.Exact`: trees without floating point numbers whose integers fit 64 bits;
* **`Json.reads_toJson`**: such a tree is read back from its compact text; `Json.reads_flat`: and so is
  any object of texts and integers.
-/

import Gatehouse.Json.Tree
import Gatehouse.Proofs.Json.Integers
import Gatehouse.Proofs.Json.Literals

namespace Gatehouse

namespace Json

open Text (Bytes)

/-! ### Cutting -/

/-- A text does not go on with a word. -/
def Ends (text : Bytes) : Prop := ∀ byte ∈ text.head?, isWordByte byte = false

/-- A text is cut into tokens, whatever follows that does not go on with its last word. -/
def Cuts (text : Bytes) (tokens : List Token) : Prop :=
  ∀ rest, Ends rest →
    tokensFrom? .between (text ++ rest) = (tokensFrom? .between rest).map (tokens ++ ·)

theorem Cuts.nil : Cuts [] [] := fun _ _ => Option.map_id'.symm

/-- A text that does not go on with a word may follow. -/
theorem Cuts.append {first second : Bytes} {tokens others : List Token} (cuts : Cuts first tokens)
    (apart : ∀ rest, Ends rest → Ends (second ++ rest)) (next : Cuts second others) :
    Cuts (first ++ second) (tokens ++ others) := by
  intro rest ends
  rw [List.append_assoc, cuts _ (apart rest ends), next rest ends, Option.map_map]
  exact congrArg (Option.map · _) (funext fun later => (List.append_assoc ..).symm)

/-- Punctuation is a token of its own. -/
theorem Cuts.mark {byte : UInt8} {token : Token} (mark : start byte = some ([token], .between))
    {text : Bytes} {tokens : List Token} (cuts : Cuts text tokens) :
    Cuts (byte :: text) (token :: tokens) := by
  intro rest ends
  have step : Mode.between.advance byte = some ([token], .between) := mark
  rw [List.cons_append, tokensFrom?_cons, step]
  show (tokensFrom? .between (text ++ rest)).map ([token] ++ ·) = _
  rw [cuts rest ends, Option.map_map]
  rfl

theorem cuts_literal (text : String) :
    Cuts (Text.encode (encodeLiteral text)) [.string (contentOf text)] :=
  fun rest _ => tokensFrom?_literal text rest

theorem start_of_isWordByte {byte : UInt8} (letter : isWordByte byte = true) :
    start byte = some ([], .word [byte]) := by
  have space : ¬ isSpace byte = true := by
    intro space
    simp only [isSpace, Bool.or_eq_true, beq_iff_eq] at space
    rcases space with ((rfl | rfl) | rfl) | rfl <;> cases letter
  have quote : byte ≠ 0x22 := by
    rintro rfl
    cases letter
  rw [start, if_neg space, if_neg quote, if_pos letter]

theorem tokensFrom?_word {letters : Bytes} (all : ∀ byte ∈ letters, isWordByte byte = true)
    (read rest : Bytes) : tokensFrom? (.word read) (letters ++ rest) =
      tokensFrom? (.word (letters.reverse ++ read)) rest := by
  induction letters generalizing read with
  | nil => rfl
  | cons byte others ih =>
    obtain ⟨here, there⟩ := List.forall_mem_cons.mp all
    have step : (Mode.word read).advance byte = some ([], .word (byte :: read)) := by
      rw [Mode.advance, if_pos here]
    rw [List.cons_append, tokensFrom?_of_advance step, ih there, List.reverse_cons,
      List.append_assoc]
    rfl

/-- A word ends where it does not go on. -/
theorem tokensFrom?_word_end (read : Bytes) {rest : Bytes} (ends : Ends rest) :
    tokensFrom? (.word read) rest =
      (tokensFrom? .between rest).map (.word read.reverse :: ·) := by
  cases rest with
  | nil => rfl
  | cons byte others =>
    have other : ¬ isWordByte byte = true := by
      rw [ends byte rfl]
      exact Bool.false_ne_true
    have step : (Mode.word read).advance byte =
        (Mode.between.advance byte).map fun next => (.word read.reverse :: next.1, next.2) :=
      if_neg other
    rw [tokensFrom?_cons, tokensFrom?_cons, step]
    cases Mode.between.advance byte with
    | none => rfl
    | some next =>
      simp only [Option.map_some, Option.bind_some, Option.map_map]
      rfl

theorem cuts_word {letters : Bytes} (some_letter : letters ≠ [])
    (all : ∀ byte ∈ letters, isWordByte byte = true) : Cuts letters [.word letters] := by
  intro rest ends
  obtain ⟨byte, others, rfl⟩ := List.exists_cons_of_ne_nil some_letter
  obtain ⟨here, there⟩ := List.forall_mem_cons.mp all
  have step : Mode.between.advance byte = some ([], .word [byte]) := start_of_isWordByte here
  rw [List.cons_append, tokensFrom?_of_advance step, tokensFrom?_word there,
    tokensFrom?_word_end _ ends, List.reverse_append, List.reverse_reverse]
  rfl

/-! ### Building -/

theorem run_cons (state : State) (token : Token) (rest : List Token) :
    State.run state (token :: rest) = (state.advance token).bind fun next => State.run next rest :=
  rfl

/-- A value is built from tokens, wherever a value is expected. -/
structure Builds (tokens : List Token) (value : Json) : Prop where
  /-- The first token does not end an array. -/
  opens : ∃ first rest, tokens = first :: rest ∧ first ≠ .closeArray
  run : ∀ frames rest, State.run ⟨frames, .value⟩ (tokens ++ rest) =
    State.run ⟨frames, .next value⟩ rest

theorem Builds.of_begin {token : Token} {value : Json} (opening : token ≠ .closeArray)
    (begins : ∀ frames, State.begin frames token = some ⟨frames, .next value⟩) :
    Builds [token] value where
  opens := ⟨token, [], rfl, opening⟩
  run frames rest := by
    have step : State.advance ⟨frames, .value⟩ token = some ⟨frames, .next value⟩ := by
      rw [← begins frames]
      cases token <;> rfl
    rw [List.singleton_append, run_cons, step]
    rfl

/-! ### Spelling -/

/-- A text is cut into tokens from which a value is built. -/
def Spells (text : Bytes) (value : Json) : Prop :=
  ∃ tokens, Cuts text tokens ∧ Builds tokens value

/-- A text that spells a value is read as this value. -/
theorem Spells.parse?_eq {text : Bytes} {value : Json} (spells : Spells text value) :
    parse? text = some value := by
  obtain ⟨tokens, cuts, builds⟩ := spells
  have cut := cuts [] fun byte impossible => by cases impossible
  have built := builds.run [] []
  rw [List.append_nil] at cut built
  have all : tokens? text = some tokens := by
    rw [tokens?, cut]
    exact congrArg some (List.append_nil tokens)
  simp only [parse?, all, built, bind, Option.bind]
  rfl

theorem spells_literal (text : String) :
    Spells (Text.encode (encodeLiteral text)) (.string (contentOf text)) :=
  ⟨_, cuts_literal text, .of_begin (fun same => by cases same) fun _ => rfl⟩

theorem spells_word {letters : Bytes} {value : Json} (some_letter : letters ≠ [])
    (all : ∀ byte ∈ letters, isWordByte byte = true) (known : ofWord? letters = some value) :
    Spells letters value := by
  refine ⟨_, cuts_word some_letter all, .of_begin (fun same => by cases same) fun frames => ?_⟩
  rw [State.begin, known]
  rfl

/-- The items of an array with commas between them. -/
theorem exists_items {texts : List Bytes} {values : List Json}
    (spelled : List.Forall₂ Spells texts values) (many : values ≠ []) :
    ∃ tokens, Cuts ([0x2C].intercalate texts) tokens ∧
      (∃ first rest, tokens = first :: rest ∧ first ≠ .closeArray) ∧
      ∀ read frames rest,
        State.run ⟨.array read :: frames, .value⟩ (tokens ++ .closeArray :: rest) =
          State.run ⟨frames, .next (.array (read.reverse ++ values))⟩ rest := by
  induction spelled with
  | nil => exact (many rfl).elim
  | @cons text value texts values here there ih =>
    obtain ⟨tokens, cuts, builds⟩ := here
    cases there with
    | nil =>
      refine ⟨tokens, by simpa using cuts, builds.opens, fun read frames rest => ?_⟩
      rw [builds.run, run_cons]
      show State.run ⟨frames, .next (.array (value :: read).reverse)⟩ rest = _
      rw [List.reverse_cons]
    | @cons next follower texts values here there =>
      obtain ⟨others, cuts', _, run'⟩ := ih (List.cons_ne_nil _ _)
      have comma : start 0x2C = some ([.comma], .between) := rfl
      refine ⟨tokens ++ .comma :: others, ?_, ?_, fun read frames rest => ?_⟩
      · rw [List.intercalate_cons_cons, List.append_assoc]
        exact cuts.append (fun rest _ byte here => by cases here; rfl) (cuts'.mark comma)
      · obtain ⟨first, rest, whole, opening⟩ := builds.opens
        exact ⟨first, rest ++ .comma :: others, by rw [whole]; rfl, opening⟩
      · rw [List.append_assoc, builds.run, List.cons_append, run_cons]
        show State.run ⟨.array (value :: read) :: frames, .value⟩ _ = _
        rw [run', List.reverse_cons, List.append_assoc]
        rfl

/-- The texts of values with commas between them, in square brackets, spell an array. -/
theorem Spells.array {texts : List Bytes} {values : List Json}
    (spelled : List.Forall₂ Spells texts values) :
    Spells (0x5B :: ([0x2C].intercalate texts ++ [0x5D])) (.array values) := by
  have opening : start 0x5B = some ([.openArray], .between) := rfl
  have closing : start 0x5D = some ([.closeArray], .between) := rfl
  have apart (rest : Bytes) : Ends ([0x5D] ++ rest) := fun byte here => by cases here; rfl
  by_cases many : values = []
  · cases spelled with
    | nil =>
      exact ⟨[.openArray, .closeArray], (Cuts.nil.mark closing).mark opening,
        ⟨_, _, rfl, fun same => by cases same⟩, fun frames rest => rfl⟩
    | cons here there => cases many
  · obtain ⟨tokens, cuts, ⟨first, others, whole, inner⟩, run⟩ := exists_items spelled many
    refine ⟨.openArray :: (tokens ++ [.closeArray]), ?_, ⟨_, _, rfl, fun same => by cases same⟩,
      fun frames rest => ?_⟩
    · exact (cuts.append (fun rest _ => apart rest) (Cuts.nil.mark closing)).mark opening
    · have item : State.run ⟨.array [] :: frames, .item⟩ (tokens ++ .closeArray :: rest) =
          State.run ⟨.array [] :: frames, .value⟩ (tokens ++ .closeArray :: rest) := by
        rw [whole, List.cons_append, run_cons, run_cons]
        cases first <;> first | rfl | exact (inner rfl).elim
      rw [List.cons_append, run_cons, List.append_assoc]
      exact item.trans (run [] frames rest)

/-- The literal of a key, a colon and the text of a value. -/
def SpellsMember (text : Bytes) (member : Bytes × Json) : Prop :=
  ∃ key value, text = Text.encode (encodeLiteral key) ++ 0x3A :: value ∧
    member.1 = contentOf key ∧ Spells value member.2

/-- The members of an object with commas between them. -/
theorem exists_members {texts : List Bytes} {members : List (Bytes × Json)}
    (spelled : List.Forall₂ SpellsMember texts members) (many : members ≠ []) :
    ∃ key tokens, Cuts ([0x2C].intercalate texts) (.string key :: tokens) ∧
      ∀ read frames rest,
        State.run ⟨frames, .key read⟩ (.string key :: tokens ++ .closeObject :: rest) =
          State.run ⟨frames, .next (.object (read.reverse ++ members))⟩ rest := by
  induction spelled with
  | nil => exact (many rfl).elim
  | @cons text member texts members here there ih =>
    obtain ⟨_, content⟩ := member
    obtain ⟨key, value, rfl, rfl, tokens, cuts, builds⟩ := here
    have colon : start 0x3A = some ([.colon], .between) := rfl
    have whole : Cuts (Text.encode (encodeLiteral key) ++ 0x3A :: value)
        (.string (contentOf key) :: .colon :: tokens) :=
      (cuts_literal key).append (fun rest _ byte here => by cases here; rfl) (cuts.mark colon)
    -- the key, the colon and the value bring the machine to what may follow a member
    have step (read : List (Bytes × Json)) (frames : List Frame) (rest : List Token) :
        State.run ⟨frames, .key read⟩ (.string (contentOf key) :: .colon :: (tokens ++ rest)) =
          State.run ⟨.object read (contentOf key) :: frames, .next content⟩ rest := by
      rw [run_cons]
      show State.run ⟨.object read (contentOf key) :: frames, .value⟩ (tokens ++ rest) = _
      exact builds.run _ rest
    cases there with
    | nil =>
      refine ⟨contentOf key, .colon :: tokens, by simpa using whole, fun read frames rest => ?_⟩
      rw [List.cons_append, List.cons_append, step, run_cons]
      show State.run ⟨frames, .next (.object ((contentOf key, content) :: read).reverse)⟩ rest = _
      rw [List.reverse_cons]
    | @cons next follower texts members here there =>
      obtain ⟨key', others, cuts', run'⟩ := ih (List.cons_ne_nil _ _)
      have comma : start 0x2C = some ([.comma], .between) := rfl
      refine ⟨contentOf key, .colon :: (tokens ++ .comma :: .string key' :: others), ?_,
        fun read frames rest => ?_⟩
      · rw [List.intercalate_cons_cons, List.append_assoc]
        exact whole.append (fun rest _ byte here => by cases here; rfl) (cuts'.mark comma)
      · rw [List.cons_append, List.cons_append, List.append_assoc, step, List.cons_append, run_cons]
        show State.run ⟨frames, .key ((contentOf key, content) :: read)⟩ _ = _
        rw [run', List.reverse_cons, List.append_assoc]
        rfl

/-- The texts of members with commas between them, in curly brackets, spell an object. -/
theorem Spells.object {texts : List Bytes} {members : List (Bytes × Json)}
    (spelled : List.Forall₂ SpellsMember texts members) :
    Spells (0x7B :: ([0x2C].intercalate texts ++ [0x7D])) (.object members) := by
  have opening : start 0x7B = some ([.openObject], .between) := rfl
  have closing : start 0x7D = some ([.closeObject], .between) := rfl
  have apart (rest : Bytes) : Ends ([0x7D] ++ rest) := fun byte here => by cases here; rfl
  by_cases many : members = []
  · cases spelled with
    | nil =>
      exact ⟨[.openObject, .closeObject], (Cuts.nil.mark closing).mark opening,
        ⟨_, _, rfl, fun same => by cases same⟩, fun frames rest => rfl⟩
    | cons here there => cases many
  · obtain ⟨key, tokens, cuts, run⟩ := exists_members spelled many
    refine ⟨.openObject :: (.string key :: tokens ++ [.closeObject]), ?_,
      ⟨_, _, rfl, fun same => by cases same⟩, fun frames rest => ?_⟩
    · exact (cuts.append (fun rest _ => apart rest) (Cuts.nil.mark closing)).mark opening
    · rw [List.cons_append, run_cons, List.append_assoc]
      exact run [] frames rest

/-! ### Written trees -/

theorem encode_intercalate (texts : List String) :
    Text.encode (",".intercalate texts) = [0x2C].intercalate (texts.map Text.encode) := by
  induction texts with
  | nil => rfl
  | cons text rest ih =>
    cases rest with
    | nil => rw [String.intercalate_singleton, List.map_singleton, List.intercalate_singleton]
    | cons next others =>
      rw [String.intercalate_cons_cons, Text.encode_append, Text.encode_append, ih, List.map_cons,
        List.map_cons, List.map_cons, List.intercalate_cons_cons]
      rfl

theorem spells_null : Spells (Text.encode "null") .null :=
  spells_word (by decide) (by decide +kernel) rfl

theorem spells_bool (value : Bool) :
    Spells (Text.encode (if value then "true" else "false")) (.bool value) := by
  cases value
  · exact spells_word (by decide) (by decide +kernel) rfl
  · exact spells_word (by decide) (by decide +kernel) rfl

theorem isWordByte_digit {byte : UInt8} (digit : 48 ≤ byte.toNat ∧ byte.toNat ≤ 57) :
    isWordByte byte = true := by
  have low : (0x30 : UInt8) ≤ byte := digit.1
  have high : byte ≤ (0x39 : UInt8) := digit.2
  simp [isWordByte, low, high]

theorem spells_toString (value : Int) :
    Spells (Text.encode (toString value)) (.number (.ofInt value)) := by
  have letters : ∀ byte ∈ Text.encode (toString value), isWordByte byte = true := by
    rw [Number.encode_toString]
    intro byte member
    rcases List.mem_append.mp member with sign | digit
    · split at sign
      · cases List.mem_singleton.mp sign
        rfl
      · cases sign
    · exact isWordByte_digit (Number.mem_encode_repr digit)
  have number := Number.parse?_toString value
  -- no constant is a number
  have other (word : String) (absent : Number.parse? (Text.encode word) = none) :
      Text.encode (toString value) ≠ Text.encode word := by
    intro same
    rw [same, absent] at number
    cases number
  refine spells_word ?_ letters ?_
  · rw [Number.encode_toString]
    exact List.append_ne_nil_of_right_ne_nil _ (Number.encode_repr_ne_nil _)
  · rw [ofWord?, if_neg (other "null" rfl), if_neg (other "true" rfl), if_neg (other "false" rfl),
      number]
    rfl

end Json

namespace Tree

/-- Trees without floating point numbers, whose integers fit 64 bits and whose lists and objects
stand at most `depth` deep inside each other. -/
inductive Exact : Nat → Tree → Prop
  | null (depth : Nat) : Exact depth .null
  | bool (depth : Nat) (value : Bool) : Exact depth (.bool value)
  | int (depth : Nat) (value : Int) (fits : Json.Number.Fits value) : Exact depth (.int value)
  | text (depth : Nat) (value : String) : Exact depth (.text value)
  | list (depth : Nat) (items : List Tree) (each : ∀ item ∈ items, Exact depth item) :
      Exact (depth + 1) (.list items)
  | object (depth : Nat) (entries : List (String × Tree))
      (each : ∀ entry ∈ entries, Exact depth entry.2) : Exact (depth + 1) (.object entries)

/-- Texts, and integers that fit 64 bits. -/
def isFlat : Tree → Bool
  | .text _ => true
  | .int value => decide (Json.Number.Fits value)
  | _ => false

theorem Exact.of_isFlat {tree : Tree} (flat : tree.isFlat = true) (depth : Nat) :
    Exact depth tree := by
  cases tree with
  | text value => exact .text depth value
  | int value => exact .int depth value (of_decide_eq_true flat)
  | _ => cases flat

end Tree

namespace Json

open Text (Bytes)

/-- A text spells a value that stands for a tree. -/
def Writes (depth : Nat) (text : Bytes) (tree : Tree) : Prop :=
  ∃ value, Spells text value ∧ toTree? depth value = some tree

theorem exists_itemTrees {depth : Nat} {items : List Tree}
    (each : ∀ item ∈ items, Writes depth (Text.encode item.toJson) item) :
    ∃ values, List.Forall₂ Spells ((Tree.itemTexts items).map Text.encode) values ∧
      itemTrees? depth values = some items := by
  induction items with
  | nil => exact ⟨[], .nil, by rw [itemTrees?]⟩
  | cons item rest ih =>
    obtain ⟨⟨value, spells, stands⟩, there⟩ := List.forall_mem_cons.mp each
    obtain ⟨values, spelled, all⟩ := ih there
    refine ⟨value :: values, ?_, by rw [itemTrees?, stands, all]; rfl⟩
    rw [Tree.itemTexts, List.map_cons]
    exact .cons spells spelled

theorem exists_memberTrees {depth : Nat} {entries : List (String × Tree)}
    (each : ∀ entry ∈ entries, Writes depth (Text.encode entry.2.toJson) entry.2) :
    ∃ members, List.Forall₂ SpellsMember ((Tree.entryTexts entries).map Text.encode) members ∧
      memberTrees? depth members = some entries := by
  induction entries with
  | nil => exact ⟨[], .nil, by rw [memberTrees?]⟩
  | cons entry rest ih =>
    obtain ⟨key, tree⟩ := entry
    obtain ⟨⟨value, spells, stands⟩, there⟩ := List.forall_mem_cons.mp each
    obtain ⟨members, spelled, all⟩ := ih there
    refine ⟨(contentOf key, value) :: members, ?_, ?_⟩
    · rw [Tree.entryTexts, List.map_cons]
      refine .cons ⟨key, _, ?_, rfl, spells⟩ spelled
      rw [Text.encode_append, Text.encode_append, List.append_assoc]
      rfl
    · rw [memberTrees?, decodeLiteral?_contentOf, stands, all]
      rfl

/-- The compact text of a tree spells a value that stands for the tree. -/
theorem writes_toJson {depth : Nat} {tree : Tree} (exact : tree.Exact depth) :
    Writes depth (Text.encode tree.toJson) tree := by
  induction exact with
  | null depth => exact ⟨.null, spells_null, by rw [toTree?]⟩
  | bool depth value => exact ⟨.bool value, spells_bool value, by rw [toTree?]⟩
  | int depth value fits =>
    refine ⟨_, spells_toString value, ?_⟩
    rw [toTree?, Number.value?_ofInt fits]
    rfl
  | text depth value =>
    refine ⟨_, spells_literal value, ?_⟩
    rw [toTree?, decodeLiteral?_contentOf]
    rfl
  | list depth items _ ih =>
    obtain ⟨values, spelled, all⟩ := exists_itemTrees ih
    refine ⟨.array values, ?_, by rw [toTree?, all]; rfl⟩
    have written : (Tree.list items).toJson =
        "[" ++ ",".intercalate (Tree.itemTexts items) ++ "]" := rfl
    rw [written, Text.encode_append, Text.encode_append, encode_intercalate]
    exact .array spelled
  | object depth entries _ ih =>
    obtain ⟨members, spelled, all⟩ := exists_memberTrees ih
    refine ⟨.object members, ?_, by rw [toTree?, all]; rfl⟩
    have written : (Tree.object entries).toJson =
        "\x7b" ++ ",".intercalate (Tree.entryTexts entries) ++ "\x7d" := rfl
    rw [written, Text.encode_append, Text.encode_append, encode_intercalate]
    exact .object spelled

/-- A text is read as a tree. -/
def Reads (text : Bytes) (tree : Tree) : Prop := (parse? text).bind (toTree? maxDepth) = some tree

/-- **A tree is read back** from its compact text. -/
theorem reads_toJson {tree : Tree} (exact : tree.Exact maxDepth) :
    Reads (Text.encode tree.toJson) tree := by
  obtain ⟨value, spells, stands⟩ := writes_toJson exact
  rw [Reads, spells.parse?_eq]
  exact stands

/-- An object of texts and integers is read back from its compact text. -/
theorem reads_flat {entries : List (String × Tree)}
    (flat : entries.all (fun entry => entry.2.isFlat) = true) :
    Reads (Text.encode (Tree.object entries).toJson) (.object entries) :=
  reads_toJson (.object 126 entries fun entry member =>
    .of_isFlat (List.all_eq_true.mp flat entry member) 126)

end Json

end Gatehouse
