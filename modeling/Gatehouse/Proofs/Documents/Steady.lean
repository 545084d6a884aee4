/-
**Stores that stay as they are.**

Over a store that does not change while it is read, what reading a type comes to can be told in
advance: a document, nothing, or an error. What is read of several types at once reports the errors
among these.

* `Lists`, `Steady`: what it is for a store to stay as it is; `Steady.of_unchanging`: stores that do;
* `Holding.result`: what reading a type comes to;
* `Reports`: which of several errors is reported; `Lists.reports`: those of an answer;
* `Steady.conduct`: a reading leaves the store as it is.
-/

import Gatehouse.Documents.Directory
import Gatehouse.Proofs.Documents.Failure
import Mathlib.Data.List.Basic

namespace Gatehouse

variable {σ : Type}

/-! ### First results -/

theorem findSome?_filter {α β : Type} (f : α → Option β) (keep : α → Bool) (list : List α) :
    (list.filter keep).findSome? f = list.findSome? fun a => if keep a then f a else none := by
  induction list with
  | nil => rfl
  | cons a rest ih =>
    rw [List.filter_cons, List.findSome?_cons]
    cases keep a with
    | true => rw [if_pos rfl, if_pos rfl, List.findSome?_cons, ih]
    | false => rw [if_neg Bool.false_ne_true, if_neg Bool.false_ne_true, ih]

/-- A search finds nothing in repetitions. -/
theorem findSome?_eraseDups {β : Type} (f : String → Option β) (list : List String) :
    list.eraseDups.findSome? f = list.findSome? f := by
  induction length : list.length using Nat.strongRecOn generalizing list with
  | ind n ih =>
    cases list with
    | nil => rfl
    | cons a rest =>
      have shorter : (rest.filter fun b => !b == a).length < n := by
        rw [← length, List.length_cons]
        exact Nat.lt_succ_of_le (List.length_filter_le _ _)
      rw [List.eraseDups_cons, List.findSome?_cons, List.findSome?_cons, ih _ shorter _ rfl]
      cases here : f a with
      | some _ => rfl
      | none =>
        have same : (fun b => if !b == a then f b else none) = f := by
          funext b
          by_cases again : b = a <;> simp [again, here]
        rw [findSome?_filter, same]

/-! ### Stores that stay as they are -/

/-- What a store holds: a document for each type, or the reason why it cannot be read. -/
abbrev Holding := Except StoreError (String → StoredDocument)

/-- An answer lists what is held for the types that are asked for and for no others; if it is ordered,
in the order of the question. A type that is asked for again may be listed again or not. -/
inductive Lists (ordered : Bool) (types : List String) : Holding → StoreAnswer → Prop
  | failure (error : StoreError) : Lists ordered types (.error error) (.error error)
  | listing {held : String → StoredDocument} {names : List String}
      (members : ∀ type, type ∈ names ↔ type ∈ types)
      (order : ordered = true → names.eraseDups = types.eraseDups) :
      Lists ordered types (.ok held) (.ok (names.map fun type => (type, held type)))

/-- Documents over a store of a kind that stays as it is: whatever it is asked for, it answers with
what is held, and asking leaves a store of the same kind. A gate that has not been passed yet opens
either always or never. -/
structure Steady [DocumentStore σ] (held : Holding) (opens ordered : Bool) (kind : σ → Prop)
    (documents : Documents σ) : Prop where
  store : kind documents.store
  reads : ∀ {store after types given}, kind store →
    DocumentStore.multiGet types store = (given, after) → Lists ordered types held given ∧ kind after
  passed : documents.ready = true → opens = true
  probes : documents.ready = false → ∀ {store after probe answer}, kind store →
    Probe store probe answer after → answer = opens ∧ kind after

/-- A store that no question changes stays as it is. -/
theorem Steady.of_unchanging [DocumentStore σ] {documents : Documents σ}
    {held : String → StoredDocument}
    (lifecycle : (DocumentStore.lifecycle documents.store).2 = documents.store)
    (indexExists : (DocumentStore.indexExists documents.store).2 = documents.store)
    (health : (DocumentStore.health documents.store).2 = documents.store)
    (multiGet : ∀ types, DocumentStore.multiGet types documents.store =
      (.ok (types.map fun type => (type, held type)), documents.store)) :
    Steady (.ok held) documents.ensureReady.1 true (· = documents.store) documents where
  store := rfl
  reads := by
    rintro _ after types given rfl asked
    cases (multiGet types).symm.trans asked
    exact ⟨.listing (fun _ => Iff.rfl) fun _ => rfl, rfl⟩
  passed ready := by rw [Documents.ensureReady, if_pos ready]
  probes unready := by
    rintro _ after probe answer rfl asked
    cases asked with
    | notStarted first refuses =>
      refine ⟨?_, by rwa [first] at lifecycle⟩
      simp [Documents.ensureReady, unready, first, refuses]
    | @noIndex started _ first second =>
      obtain rfl : started = documents.store := by rwa [first] at lifecycle
      refine ⟨?_, by rwa [second] at indexExists⟩
      simp [Documents.ensureReady, unready, first, second]
    | @answered started indexed quality _ first second third =>
      obtain rfl : started = documents.store := by rwa [first] at lifecycle
      obtain rfl : indexed = documents.store := by rwa [second] at indexExists
      refine ⟨?_, by rwa [third] at health⟩
      cases serving : quality.isServing <;>
        simp [Documents.ensureReady, unready, first, second, third, serving]

/-- The documents over a store in memory, at any point. -/
theorem MemoryStore.steady (documents : Documents MemoryStore) :
    Steady (.ok documents.store.document) documents.ensureReady.1 true (· = documents.store)
      documents :=
  .of_unchanging rfl rfl rfl fun _ => rfl

/-- The documents over a directory, at any point. -/
theorem DirectoryStore.steady (documents : Documents DirectoryStore) :
    Steady (.ok documents.store.read) documents.ensureReady.1 true (· = documents.store) documents :=
  .of_unchanging rfl rfl rfl fun _ => rfl

/-! ### What is held -/

/-- What reading one type can come to: its document, if there is one, or an error. -/
abbrev Result := Except DocumentError (Option Settings)

/-- The error of a result. -/
def Result.error? (result : Result) : Option DocumentError := (Answer.document result).error?

/-- The document of a result. -/
def Result.document? (result : Result) : Option Settings := (Answer.document result).single?

/-- What reading a document that is held for a type comes to. -/
def StoredDocument.result (type : String) : StoredDocument → Result
  | .found text =>
    match Settings.ofYaml text with
    | .ok settings => .ok (some settings)
    | .error fault => .error (.malformed type fault.message)
  | .missing | .failed _ => .ok none

/-- What reading a type comes to. -/
def Holding.result (type : String) : Holding → Result
  | .ok documents => (documents type).result type
  | .error error => .error (.store error)

theorem Result.error?_eq_some_iff {result : Result} {error : DocumentError} :
    result.error? = some error ↔ result = .error error := by
  cases result <;> simp [Result.error?, Answer.error?]

theorem Result.document?_eq_some_iff {result : Result} {settings : Settings} :
    result.document? = some settings ↔ result = .ok (some settings) := by
  cases result <;> simp [Result.document?, Answer.single?]

theorem Result.eq_ok {result : Result} (absent : result.error? = none) :
    result = .ok result.document? := by
  cases result with
  | ok document => rfl
  | error error => cases absent

namespace StoredDocument

variable {type : String} {document : StoredDocument}

theorem error?_result : (document.result type).error? = document.fault? type := by
  cases document with
  | found text =>
    rw [result, fault?]
    cases Settings.ofYaml text <;> rfl
  | missing | failed _ => rfl

theorem document?_result {settings : Option Settings}
    (parses : Option.Rel Parses document.text? settings) :
    (document.result type).document? = settings := by
  cases document with
  | found text =>
    obtain ⟨parses⟩ := parses
    rw [result, parses]
    rfl
  | missing | failed _ => cases parses; rfl

end StoredDocument

/-! ### Reports -/

/-- An error is reported for several things if one of them has it; in order, the first of them. -/
structure Reports {α : Type} (ordered : Bool) (list : List α) (error? : α → Option DocumentError)
    (reported : Option DocumentError) : Prop where
  none_iff : reported = none ↔ ∀ a ∈ list, error? a = none
  one_of : ∀ {error}, reported = some error → ∃ a ∈ list, error? a = some error
  first : ordered = true → reported = list.findSome? error?

namespace Reports

variable {α β : Type} {ordered : Bool} {list : List α} {error? : α → Option DocumentError}
  {reported : Option DocumentError}

/-- The first error is reported, in any order of things that are the same. -/
theorem of_first {names : List α} (members : ∀ a, a ∈ names ↔ a ∈ list)
    (order : ordered = true → names.findSome? error? = list.findSome? error?) :
    Reports ordered list error? (names.findSome? error?) where
  none_iff := by simp only [List.findSome?_eq_none_iff, members]
  one_of fails := by
    obtain ⟨a, member, same⟩ := List.exists_of_findSome?_eq_some fails
    exact ⟨a, (members a).mp member, same⟩
  first := order

theorem of_none (clean : ∀ a ∈ list, error? a = none) : Reports ordered list error? none where
  none_iff := ⟨fun _ => clean, fun _ => rfl⟩
  one_of fails := by cases fails
  first _ := (List.findSome?_eq_none_iff.mpr clean).symm

theorem eq_of_singleton {a : α} (reports : Reports ordered [a] error? reported) :
    reported = error? a := by
  cases same : reported with
  | none => exact ((reports.none_iff.mp same) a (List.mem_singleton_self a)).symm
  | some error =>
    obtain ⟨b, member, fails⟩ := reports.one_of same
    rw [← fails, List.mem_singleton.mp member]

theorem of_map {f : β → α} {things : List β}
    (reports : Reports ordered (things.map f) error? reported) :
    Reports ordered things (fun b => error? (f b)) reported where
  none_iff := by simpa using reports.none_iff
  one_of fails := by simpa using reports.one_of fails
  first order := by simpa [List.findSome?_map, Function.comp_def] using reports.first order

theorem map (f : β → α) {things : List β}
    (reports : Reports ordered things (fun b => error? (f b)) reported) :
    Reports ordered (things.map f) error? reported where
  none_iff := by simpa using reports.none_iff
  one_of fails := by simpa using reports.one_of fails
  first order := by simpa [List.findSome?_map, Function.comp_def] using reports.first order

/-- Things without an error do not matter. -/
theorem of_filter {keep : α → Bool} {all : α → Option DocumentError}
    (reports : Reports ordered (list.filter keep) error? reported)
    (same : ∀ a, all a = if keep a then error? a else none) : Reports ordered list all reported where
  none_iff := by
    rw [reports.none_iff]
    simp only [List.mem_filter, same, ite_eq_right_iff]
    exact ⟨fun each a member keeps => each a ⟨member, keeps⟩, fun each a member =>
      each a member.1 member.2⟩
  one_of fails := by
    obtain ⟨a, member, here⟩ := reports.one_of fails
    obtain ⟨member, keeps⟩ := List.mem_filter.mp member
    exact ⟨a, member, by rw [same, if_pos keeps, here]⟩
  first order := by
    rw [reports.first order, findSome?_filter]
    exact congrArg (List.findSome? · list) (funext fun a => (same a).symm)

end Reports

namespace Lists

variable {ordered : Bool} {types : List String} {held : Holding}

/-- An answer reports the faults of the documents that it was asked for. -/
theorem reports {given : StoreAnswer} (lists : Lists ordered types held given)
    (nonempty : types ≠ []) :
    Reports ordered types (fun type => (held.result type).error?) (Documents.faultIn given) := by
  cases lists with
  | failure error =>
    obtain ⟨type, rest, rfl⟩ := List.exists_cons_of_ne_nil nonempty
    exact ⟨⟨nofun, fun each => each type List.mem_cons_self⟩,
      fun same => ⟨type, List.mem_cons_self, same⟩, fun _ => rfl⟩
  | @listing documents names members order =>
    have faults : Documents.faultIn (.ok (names.map fun type => (type, documents type))) =
        names.findSome? fun type => (Holding.result type (.ok documents)).error? := by
      rw [Documents.faultIn, List.findSome?_map]
      exact congrArg (List.findSome? · names) (funext fun type => StoredDocument.error?_result.symm)
    rw [faults]
    refine .of_first members fun ordered => ?_
    rw [← findSome?_eraseDups, order ordered, findSome?_eraseDups]

/-- The documents of an answer are those held for the types that were asked for. -/
theorem find?_parseAll {listed : List (String × StoredDocument)}
    (lists : Lists ordered types held (.ok listed)) {found : Table Settings}
    (parsed : Documents.parseAll .empty listed = .ok found) (type : String) :
    found.find? type = if type ∈ types then (held.result type).document? else none := by
  cases lists with
  | @listing documents names members order =>
    have texts := rel_found parsed type
    rw [textIn_map, if_congr (members type) rfl rfl] at texts
    split
    · next member =>
      rw [if_pos member] at texts
      exact (StoredDocument.document?_result texts).symm
    · next other =>
      rw [if_neg other] at texts
      generalize found.find? type = settings at texts
      cases texts
      rfl

end Lists

/-! ### Readings -/

section Step

variable [DocumentStore σ] {held : Holding} {opens ordered : Bool} {kind : σ → Prop}
  {documents after opened : Documents σ} {probe exchanges : List Exchange} {ready : Bool}
  {answer : Answer}

theorem Steady.gate (steady : Steady held opens ordered kind documents)
    (gate : Gate documents probe ready opened) : ready = opens ∧ kind opened.store := by
  cases gate with
  | passed open_ => exact ⟨(steady.passed open_).symm, steady.store⟩
  | probed unready asked => exact steady.probes unready steady.store asked

theorem Steady.of_gate (steady : Steady held opens ordered kind documents)
    (gate : Gate documents probe ready opened) {store : σ} (same : kind store)
    (cache : Table Settings) :
    Steady held opens ordered kind { opened with store := store, cache := cache } where
  store := same
  reads := steady.reads
  passed open_ := (steady.gate gate).1 ▸ gate.ready_eq.symm.trans open_
  probes closed := by
    cases gate with
    | passed open_ => cases open_.symm.trans closed
    | probed unready _ => exact steady.probes unready

/-- Reading leaves a steady store steady. -/
theorem Steady.conduct (steady : Steady held opens ordered kind documents) {reading : Reading}
    (conduct : Conduct documents reading exchanges answer after) :
    Steady held opens ordered kind after := by
  cases conduct with
  | idle _ => exact steady
  | refused _ gate => exact steady.of_gate gate (steady.gate gate).2 _
  | known gate _ _ => exact steady.of_gate gate (steady.gate gate).2 _
  | failed gate _ asked _ =>
    exact steady.of_gate gate (steady.reads (steady.gate gate).2 asked).2 _
  | read _ gate _ asked _ _ _ =>
    exact steady.of_gate gate (steady.reads (steady.gate gate).2 asked).2 _

end Step

end Gatehouse
