/-
**What a directory serves.**

A type is read from a directory through three children of it, named by the type and an extension.
They are asked for in turn, and the first that exists decides. A type that could lead elsewhere, or
to a hidden file, is refused before any child is asked for. So a directory serves what a store in
memory would, if this holds the texts of the first files.

* `DirectoryStore.Refuses`: the types that are refused;
* `DirectoryStore.First`: the child that decides;
* `DirectoryStore.Serves`: the document of a type; `DirectoryStore.read_eq_iff`;
* `DirectoryStore.lookUp_congr`: nothing matters but the children that are asked for;
* **`DirectoryStore.multiGet_of_children`**: what is read of several types.
-/

import Gatehouse.Documents.Directory

namespace Gatehouse

/-- What a name stands for cannot be read as a text, for a reason. -/
inductive FileEntry.Fails : FileEntry → String → Prop
  | illFormed {bytes : Text.Bytes} (no_text : ∀ text, Text.encode text ≠ bytes) :
      Fails (.file bytes) "stream did not contain valid UTF-8"
  | directory : Fails .directory "Is a directory (os error 21)"
  | unreadable (reason : String) : Fails (.unreadable reason) reason

namespace DirectoryStore

/-! ### Readable files -/

theorem content_eq_ok_iff {entry : FileEntry} {text : String} :
    content entry = .ok text ↔ entry = .file (Text.encode text) := by
  cases entry with
  | file bytes =>
    rw [FileEntry.file.injEq, content]
    constructor
    · intro read
      cases decoded : Text.decode? bytes with
      | none => rw [decoded] at read; cases read
      | some found =>
        rw [decoded] at read
        cases read
        exact (Text.encode_of_decode? decoded).symm
    · rintro rfl
      rw [Text.decode?_encode]
  | directory => simp [content]
  | unreadable reason => simp [content]

theorem content_eq_error_iff {entry : FileEntry} {reason : String} :
    content entry = .error reason ↔ entry.Fails reason := by
  constructor
  · intro failed
    have no_text : ∀ text, entry ≠ .file (Text.encode text) := fun text same => by
      rw [content_eq_ok_iff.mpr same] at failed
      cases failed
    cases entry with
    | file bytes =>
      rw [content] at failed
      cases decoded : Text.decode? bytes with
      | none =>
        rw [decoded] at failed
        cases failed
        exact .illFormed fun text same => no_text text (by rw [same])
      | some text => rw [decoded] at failed; cases failed
    | directory => cases failed; exact .directory
    | unreadable => cases failed; exact .unreadable reason
  · intro fails
    cases fails with
    | @illFormed bytes no_text =>
      cases decoded : Text.decode? bytes with
      | none => rw [content, decoded]
      | some text => exact (no_text text (Text.encode_of_decode? decoded)).elim
    | directory => rfl
    | unreadable => rfl

/-! ### Children -/

/-- A type that is no plain file name: empty, hidden, or with a separator of paths. -/
def Refuses (type : String) : Prop :=
  type = "" ∨ type.toList.head? = some '.' ∨ '/' ∈ type.toList ∨ '\\' ∈ type.toList

theorem isRefused_iff {type : String} : isRefused type = true ↔ Refuses type := by
  have separated : type.toList.any (fun c => c = '/' || c = '\\') = true ↔
      '/' ∈ type.toList ∨ '\\' ∈ type.toList := by
    simp only [List.any_eq_true, Bool.or_eq_true, decide_eq_true_eq]
    constructor
    · rintro ⟨c, member, rfl | rfl⟩
      · exact .inl member
      · exact .inr member
    · rintro (member | member)
      · exact ⟨_, member, .inl rfl⟩
      · exact ⟨_, member, .inr rfl⟩
  rw [isRefused, Bool.or_eq_true, Bool.or_eq_true, decide_eq_true_eq, separated, beq_iff_eq]
  unfold Refuses
  rw [or_assoc, or_comm (b := type.toList.head? = some '.')]

/-- The children of a type that is not refused have plain names. -/
theorem plain_of_mem_candidates {type name : String} (plain : ¬ Refuses type)
    (member : name ∈ candidates type) : ¬ Refuses name := by
  have extended : ∃ extension : String, name = type ++ extension ∧
      '/' ∉ extension.toList ∧ '\\' ∉ extension.toList := by
    simp only [candidates, List.mem_cons, List.not_mem_nil, or_false] at member
    rcases member with rfl | rfl | rfl
    · exact ⟨".yml", rfl, by decide, by decide⟩
    · exact ⟨".yaml", rfl, by decide, by decide⟩
    · exact ⟨".json", rfl, by decide, by decide⟩
  obtain ⟨extension, rfl, no_slash, no_backslash⟩ := extended
  unfold Refuses at plain ⊢
  rw [← String.toList_inj] at plain ⊢
  rw [String.toList_append]
  cases letters : type.toList with
  | nil => simp [letters] at plain
  | cons c rest =>
    rw [letters] at plain
    simpa [no_slash, no_backslash] using plain

/-- The child that decides on a type: it exists, and none of those before it does. -/
def First (store : DirectoryStore) (type name : String) (entry : FileEntry) : Prop :=
  ∃ before after, candidates type = before ++ name :: after ∧
    (∀ other ∈ before, store.child? other = none) ∧ store.child? name = some entry

section Cons

variable {store : DirectoryStore} {name : String} (rest : List String)

theorem locate_cons_of_exists {entry : FileEntry} (here : store.child? name = some entry) :
    store.locate (name :: rest) = ⟨[name], some (name, entry)⟩ := by
  rw [locate, here]

theorem locate_cons_of_absent (absent : store.child? name = none) :
    store.locate (name :: rest) =
      ⟨name :: (store.locate rest).asked, (store.locate rest).result⟩ := by
  rw [locate, absent]

end Cons

theorem locate_eq (store : DirectoryStore) (names : List String) :
    (store.locate names).result = names.findSome? fun name =>
      (store.child? name).map fun entry => (name, entry) := by
  induction names with
  | nil => rfl
  | cons name rest ih =>
    rw [List.findSome?_cons]
    cases here : store.child? name with
    | some entry =>
      rw [locate_cons_of_exists rest here]
      rfl
    | none =>
      rw [locate_cons_of_absent rest here]
      exact ih

theorem locate_eq_some_iff {store : DirectoryStore} {type name : String} {entry : FileEntry} :
    (store.locate (candidates type)).result = some (name, entry) ↔ store.First type name entry := by
  rw [locate_eq, List.findSome?_eq_some_iff]
  unfold First
  constructor
  · rintro ⟨before, other, after, split, found, absent⟩
    obtain ⟨entry', exist, same⟩ := Option.map_eq_some_iff.mp found
    cases same
    exact ⟨before, after, split,
      fun other member => Option.map_eq_none_iff.mp (absent other member), exist⟩
  · rintro ⟨before, after, split, absent, exist⟩
    exact ⟨before, name, after, split, by rw [exist]; rfl,
      fun other member => Option.map_eq_none_iff.mpr (absent other member)⟩

theorem locate_eq_none_iff {store : DirectoryStore} {names : List String} :
    (store.locate names).result = none ↔ ∀ name ∈ names, store.child? name = none := by
  simp only [locate_eq, List.findSome?_eq_none_iff, Option.map_eq_none_iff]

/-! ### Documents -/

/-- The document of a type in a directory. -/
inductive Serves (store : DirectoryStore) (type : String) : StoredDocument → Prop
  | refused (refuses : Refuses type) :
      Serves store type (.failed ("invalid configuration type '" ++ type ++ "'"))
  | found {name text : String} (plain : ¬ Refuses type)
      (first : store.First type name (.file (Text.encode text))) : Serves store type (.found text)
  | failed {name reason : String} {entry : FileEntry} (plain : ¬ Refuses type)
      (first : store.First type name entry) (fails : entry.Fails reason) :
      Serves store type (.failed (store.pathOf name ++ ": " ++ reason))
  | missing (plain : ¬ Refuses type) (absent : ∀ name ∈ candidates type, store.child? name = none) :
      Serves store type .missing

theorem lookUp_of_refuses {store : DirectoryStore} {type : String} (refuses : Refuses type) :
    store.lookUp type = ⟨[], .failed ("invalid configuration type '" ++ type ++ "'")⟩ := by
  rw [lookUp, if_pos (isRefused_iff.mpr refuses)]

section Plain

variable {store : DirectoryStore} {type : String} (plain : ¬ Refuses type)

include plain

theorem lookUp_of_plain : store.lookUp type = ⟨(store.locate (candidates type)).asked,
    store.documentOf (store.locate (candidates type)).result⟩ := by
  rw [lookUp, if_neg (mt isRefused_iff.mp plain)]

theorem read_of_absent (absent : ∀ name ∈ candidates type, store.child? name = none) :
    store.read type = .missing := by
  rw [read, lookUp_of_plain plain, locate_eq_none_iff.mpr absent]
  rfl

theorem read_of_first {name : String} {entry : FileEntry} (first : store.First type name entry) :
    store.read type = store.documentOf (some (name, entry)) := by
  rw [read, lookUp_of_plain plain, locate_eq_some_iff.mpr first]

end Plain

theorem documentOf_text (store : DirectoryStore) (name text : String) :
    store.documentOf (some (name, .file (Text.encode text))) = .found text := by
  simp only [documentOf, content_eq_ok_iff.mpr rfl]

theorem documentOf_of_fails (store : DirectoryStore) (name : String) {entry : FileEntry}
    {reason : String} (fails : entry.Fails reason) :
    store.documentOf (some (name, entry)) = .failed (store.pathOf name ++ ": " ++ reason) := by
  simp only [documentOf, content_eq_error_iff.mpr fails]

theorem serves_read (store : DirectoryStore) (type : String) :
    store.Serves type (store.read type) := by
  by_cases refuses : Refuses type
  · rw [read, lookUp_of_refuses refuses]
    exact .refused refuses
  · cases located : (store.locate (candidates type)).result with
    | none =>
      have absent := locate_eq_none_iff.mp located
      rw [read_of_absent refuses absent]
      exact .missing refuses absent
    | some found =>
      obtain ⟨name, entry⟩ := found
      have first := locate_eq_some_iff.mp located
      rw [read_of_first refuses first]
      cases read : content entry with
      | ok text =>
        obtain rfl := content_eq_ok_iff.mp read
        rw [documentOf_text]
        exact .found refuses first
      | error reason =>
        have fails := content_eq_error_iff.mp read
        rw [documentOf_of_fails store name fails]
        exact .failed refuses first fails

theorem Serves.read_eq {store : DirectoryStore} {type : String} {document : StoredDocument}
    (serves : store.Serves type document) : store.read type = document := by
  cases serves with
  | refused refuses => rw [read, lookUp_of_refuses refuses]
  | found plain first => rw [read_of_first plain first, documentOf_text]
  | failed plain first fails => rw [read_of_first plain first, documentOf_of_fails store _ fails]
  | missing plain absent => exact read_of_absent plain absent

/-- A directory serves one document for a type, the one that is read. -/
theorem read_eq_iff {store : DirectoryStore} {type : String} {document : StoredDocument} :
    store.read type = document ↔ store.Serves type document :=
  ⟨fun same => same ▸ store.serves_read type, Serves.read_eq⟩

/-! ### What is asked for -/

theorem asked_locate_prefix (store : DirectoryStore) (names : List String) :
    (store.locate names).asked <+: names := by
  induction names with
  | nil => exact List.prefix_rfl
  | cons name rest ih =>
    cases here : store.child? name with
    | some entry =>
      rw [locate_cons_of_exists rest here]
      exact (List.prefix_cons_inj name).mpr List.nil_prefix
    | none =>
      rw [locate_cons_of_absent rest here]
      exact (List.prefix_cons_inj name).mpr ih

/-- A look depends on nothing but the names that it asks for. -/
theorem locate_congr {store other : DirectoryStore} {names : List String}
    (same : ∀ name ∈ (store.locate names).asked, other.child? name = store.child? name) :
    other.locate names = store.locate names := by
  induction names with
  | nil => rfl
  | cons name rest ih =>
    cases here : store.child? name with
    | some entry =>
      rw [locate_cons_of_exists rest here] at same ⊢
      exact locate_cons_of_exists rest ((same name List.mem_cons_self).trans here)
    | none =>
      rw [locate_cons_of_absent rest here] at same ⊢
      obtain ⟨absent, later⟩ := List.forall_mem_cons.mp same
      rw [locate_cons_of_absent rest (absent.trans here), ih later]

/-- What is found at a path and fails there also fails at another path; all else is the same. -/
theorem documentOf_congr {store other : DirectoryStore} (found : Option (String × FileEntry)) :
    ((other.path = store.path ∨ ∀ reason, store.documentOf found ≠ .failed reason) →
      other.documentOf found = store.documentOf found) ∧
    ((∃ reason, store.documentOf found = .failed reason) →
      ∃ reason, other.documentOf found = .failed reason) := by
  cases found with
  | none => exact ⟨fun _ => rfl, nofun⟩
  | some child =>
    obtain ⟨name, entry⟩ := child
    simp only [documentOf]
    cases content entry with
    | ok text => exact ⟨fun _ => rfl, nofun⟩
    | error reason =>
      refine ⟨fun same => ?_, fun _ => ⟨_, rfl⟩⟩
      obtain same | impossible := same
      · simp only [pathOf, same]
      · exact (impossible _ rfl).elim

/-- **Nothing else matters.** Two directories that agree on the children which one is asked for are
asked for the same ones, and give the same document. Only the reason of a failure names the path. -/
theorem lookUp_congr {store other : DirectoryStore} {type : String}
    (same : ∀ name ∈ (store.lookUp type).asked, other.child? name = store.child? name) :
    (other.lookUp type).asked = (store.lookUp type).asked ∧
      ((other.path = store.path ∨ ∀ reason, store.read type ≠ .failed reason) →
        other.read type = store.read type) ∧
      ((∃ reason, store.read type = .failed reason) → ∃ reason, other.read type = .failed reason) := by
  by_cases refuses : Refuses type
  · have alike : other.lookUp type = store.lookUp type :=
      (lookUp_of_refuses refuses).trans (lookUp_of_refuses refuses).symm
    unfold read
    rw [alike]
    exact ⟨rfl, fun _ => rfl, fun failed => failed⟩
  · unfold read
    rw [lookUp_of_plain refuses] at same ⊢
    rw [lookUp_of_plain refuses, locate_congr same]
    exact ⟨rfl, documentOf_congr _⟩

/-! ### Several types -/

/-- A store in memory holds what a directory has for a type that is not refused: the text of its
first file, which can be read, or nothing if there is none. -/
inductive HeldBy (store : DirectoryStore) (memory : MemoryStore) (type : String) : Prop
  | text {name text : String} (plain : ¬ Refuses type)
      (first : store.First type name (.file (Text.encode text)))
      (held : memory.documents.find? type = some text)
  | nothing (plain : ¬ Refuses type) (absent : ∀ name ∈ candidates type, store.child? name = none)
      (unheld : memory.documents.find? type = none)

theorem HeldBy.document_eq {store : DirectoryStore} {memory : MemoryStore} {type : String}
    (held : store.HeldBy memory type) : memory.document type = store.read type := by
  symm
  rw [read_eq_iff, MemoryStore.document]
  cases held with
  | text plain first held =>
    rw [held]
    exact .found plain first
  | nothing plain absent unheld =>
    rw [unheld]
    exact .missing plain absent

/-- **What is read of several types.** Every type that is asked for gets one entry, in the order of
the question: a type that is refused fails, and no child is asked for; for any other type the
children are asked for in their order up to the first that exists, which have plain names, and this
one decides. Whatever else a directory holds, and wherever it is, the documents are the same, but for
the path in the reason of a failure. A store in memory that holds the texts of the first files, where
all of them can be read, answers the same. -/
theorem multiGet_of_children (store : DirectoryStore) (types : List String) :
    DocumentStore.multiGet types store =
        (.ok (types.map fun type => (type, store.read type)), store) ∧
      (∀ type document, store.read type = document ↔ store.Serves type document) ∧
      (∀ type, Refuses type → (store.lookUp type).asked = []) ∧
      (∀ type, ¬ Refuses type → (store.lookUp type).asked <+: candidates type ∧
        ∀ name ∈ candidates type, ¬ Refuses name) ∧
      (∀ (other : DirectoryStore) type,
        (∀ name ∈ (store.lookUp type).asked, other.child? name = store.child? name) →
        (other.lookUp type).asked = (store.lookUp type).asked ∧
          ((other.path = store.path ∨ ∀ reason, store.read type ≠ .failed reason) →
            other.read type = store.read type) ∧
          ((∃ reason, store.read type = .failed reason) →
            ∃ reason, other.read type = .failed reason)) ∧
      ∀ memory : MemoryStore, (∀ type ∈ types, store.HeldBy memory type) →
        (DocumentStore.multiGet types memory).1 = (DocumentStore.multiGet types store).1 := by
  refine ⟨rfl, fun _ _ => read_eq_iff, fun type refuses => ?_, fun type plain => ⟨?_, ?_⟩,
    fun _ _ same => lookUp_congr same, fun memory held => ?_⟩
  · rw [lookUp_of_refuses refuses]
  · rw [lookUp_of_plain plain]
    exact store.asked_locate_prefix _
  · exact fun name member => plain_of_mem_candidates plain member
  · have same : ∀ type ∈ types, (type, memory.document type) = (type, store.read type) :=
      fun type member => by rw [(held type member).document_eq]
    exact congrArg Except.ok (List.map_congr_left same)

/-- A directory with two children for one type, of which the second cannot be read, and none for
another type. -/
def deck : DirectoryStore := ⟨"/deck", .directory (Table.ofList
  [("config.yaml", .file (Text.encode "a: 1")), ("config.json", .directory),
   ("log", .unreadable "Permission denied (os error 13)")])⟩

/-- A directory elsewhere, which cannot be listed, and has the first of the two children as well. -/
def hold : DirectoryStore := ⟨"hold/", .unlisted (Table.ofList
  [("config.yaml", .file (Text.encode "a: 1")), ("roles", .directory)])⟩

/-- A store in memory with the text of its first file. -/
def deckInMemory : MemoryStore :=
  { MemoryStore.empty with documents := Table.ofList [("config", "a: 1")] }

theorem multiGet_deck :
    (∀ type ∈ ["roles", "config"], deck.HeldBy deckInMemory type) ∧
    (DocumentStore.multiGet ["roles", "config"] deckInMemory).1 =
      (DocumentStore.multiGet ["roles", "config"] deck).1 ∧
    (deck.lookUp "config").asked = ["config.yml", "config.yaml"] ∧
    hold.read "config" = deck.read "config" := by
  obtain ⟨_, _, _, _, elsewhere, inMemory⟩ := multiGet_of_children deck ["roles", "config"]
  have roles : deck.HeldBy deckInMemory "roles" :=
    .nothing (by unfold Refuses; decide) (by decide +kernel) (by decide +kernel)
  have config : deck.HeldBy deckInMemory "config" :=
    .text (by unfold Refuses; decide)
      (locate_eq_some_iff.mp
        (show (deck.locate (candidates "config")).result = some ("config.yaml", _) by decide +kernel))
      (show deckInMemory.documents.find? "config" = some "a: 1" by decide +kernel)
  have held : ∀ type ∈ ["roles", "config"], deck.HeldBy deckInMemory type := by
    intro type member
    simp only [List.mem_cons, List.not_mem_nil, or_false] at member
    rcases member with rfl | rfl
    · exact roles
    · exact config
  have asked : (deck.lookUp "config").asked = ["config.yml", "config.yaml"] := by decide +kernel
  have found : deck.read "config" = .found "a: 1" := by decide +kernel
  obtain ⟨_, same, _⟩ := elsewhere hold "config" (by rw [asked]; decide +kernel)
  exact ⟨held, inMemory deckInMemory held, asked, same (.inr fun _ => by rw [found]; exact nofun)⟩

end DirectoryStore

end Gatehouse
