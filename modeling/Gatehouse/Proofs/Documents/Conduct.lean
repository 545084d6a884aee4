/-
**What reading documents can be like.**

A reading asks the gate, then perhaps the store, and then answers and keeps what it found. `Conduct`
says once, for all three ways of reading, which of five courses this can take; all that is proved of
histories goes back to it.

* `Gate`: asking whether the store is ready; `Documents.ensureReady_does`;
* `rel_parseAll`: the documents parsed are those whose texts are listed;
* `Reading.Gives`, `Reading.merged`: what a reading answers and what it keeps, by look-ups;
* **`Reading.perform_does`**: every reading takes one of the courses of `Conduct`, and takes the same
  one where the exchanges are written down;
* **`Site.observe_of_reading`**: what can be seen of an operation that reads.
-/

import Gatehouse.Proofs.Documents.History

namespace Gatehouse

variable {σ ω : Type}

/-! ### The gate -/

/-- Asking the store whether it is ready: one question after another, until an answer refuses. -/
inductive Probe [DocumentStore σ] (store : σ) : List Exchange → Bool → σ → Prop
  | notStarted {stage after} (first : DocumentStore.lifecycle store = (stage, after))
      (refuses : stage ≠ .started) : Probe store [.lifecycle stage] false after
  | noIndex {started after} (first : DocumentStore.lifecycle store = (.started, started))
      (second : DocumentStore.indexExists started = (false, after)) :
      Probe store [.lifecycle .started, .indexExists false] false after
  | answered {started indexed health after}
      (first : DocumentStore.lifecycle store = (.started, started))
      (second : DocumentStore.indexExists started = (true, indexed))
      (third : DocumentStore.health indexed = (health, after)) :
      Probe store [.lifecycle .started, .indexExists true, .health health] health.isServing after

/-- Passing the gate or not: a gate that has been passed is not asked again. -/
inductive Gate [DocumentStore σ] (documents : Documents σ) :
    List Exchange → Bool → Documents σ → Prop
  | passed (ready : documents.ready = true) : Gate documents [] true documents
  | probed {probe answer store} (unready : documents.ready = false)
      (asked : Probe documents.store probe answer store) :
      Gate documents probe answer { documents with store := store, ready := answer }

theorem Gate.cache_eq [DocumentStore σ] {documents after : Documents σ} {probe : List Exchange}
    {answer : Bool} (gate : Gate documents probe answer after) : after.cache = documents.cache := by
  cases gate <;> rfl

theorem Gate.ready_eq [DocumentStore σ] {documents after : Documents σ} {probe : List Exchange}
    {answer : Bool} (gate : Gate documents probe answer after) : after.ready = answer := by
  cases gate with
  | passed ready => exact ready
  | probed _ _ => rfl

theorem Gate.of_ready [DocumentStore σ] {documents after : Documents σ} {probe : List Exchange}
    {answer : Bool} (gate : Gate documents probe answer after) (ready : documents.ready = true) :
    probe = [] ∧ answer = true ∧ after = documents := by
  cases gate with
  | passed _ => exact ⟨rfl, rfl, rfl⟩
  | probed unready _ => cases unready.symm.trans ready

namespace Documents

/-- An action has these exchanges with the store, this answer, and leaves the documents `after`; and
so does its version over a store that writes down. -/
def Does {α : Type} (action : Documents σ → α × Documents σ)
    (recorded : Documents (Recorded σ) → α × Documents (Recorded σ)) (documents : Documents σ)
    (exchanges : List Exchange) (answer : α) (after : Documents σ) : Prop :=
  action documents = (answer, after) ∧
    ∀ before, recorded (documents.recorded before) = (answer, after.recorded (before ++ exchanges))

theorem Does.map {α β : Type} {action : Documents σ → α × Documents σ}
    {recorded : Documents (Recorded σ) → α × Documents (Recorded σ)} {documents after : Documents σ}
    {exchanges : List Exchange} {answer : α} (f : α → β)
    (does : Does action recorded documents exchanges answer after) :
    Does (fun documents => (f (action documents).1, (action documents).2))
      (fun documents => (f (recorded documents).1, (recorded documents).2))
      documents exchanges (f answer) after := by
  obtain ⟨plain, written⟩ := does
  refine ⟨?_, fun before => ?_⟩
  · show (f (action documents).1, (action documents).2) = _
    rw [plain]
  · show (f (recorded (documents.recorded before)).1, (recorded (documents.recorded before)).2) = _
    rw [written]

@[simp] theorem cache_recorded (documents : Documents σ) (exchanges : List Exchange) :
    (documents.recorded exchanges).cache = documents.cache := by
  rw [recorded]

@[simp] theorem recorded_with_cache (documents : Documents σ) (exchanges : List Exchange)
    (cache : Table Settings) :
    { documents.recorded exchanges with cache := cache } =
      { documents with cache := cache }.recorded exchanges := by
  rw [recorded, recorded]

variable [DocumentStore σ]

theorem ensureReady_does (documents : Documents σ) : ∃ probe answer after,
    Gate documents probe answer after ∧
    Does ensureReady ensureReady documents probe answer after := by
  cases ready : documents.ready with
  | true =>
    refine ⟨[], true, documents, .passed ready, ?_, fun before => ?_⟩
    · simp [ensureReady, ready]
    · simp [ensureReady, recorded, ready]
  | false =>
    rcases first : DocumentStore.lifecycle documents.store with ⟨stage, started⟩
    by_cases isStarted : stage = .started
    · subst isStarted
      rcases second : DocumentStore.indexExists started with ⟨present, indexed⟩
      cases present with
      | false =>
        refine ⟨_, _, _, .probed ready (.noIndex first second), ?_, fun before => ?_⟩
        · simp [ensureReady, ready, first, second]
        · simp [ensureReady, recorded, ready, DocumentStore.lifecycle, DocumentStore.indexExists,
            first, second]
      | true =>
        rcases third : DocumentStore.health indexed with ⟨health, after⟩
        refine ⟨_, _, _, .probed ready (.answered first second third), ?_, fun before => ?_⟩
        · cases serving : health.isServing <;> simp [ensureReady, ready, first, second, third, serving]
        · cases serving : health.isServing <;>
            simp [ensureReady, recorded, ready, DocumentStore.lifecycle, DocumentStore.indexExists,
              DocumentStore.health, first, second, third, serving]
    · refine ⟨_, _, _, .probed ready (.notStarted first isStarted), ?_, fun before => ?_⟩
      · simp [ensureReady, ready, first, isStarted]
      · simp [ensureReady, recorded, ready, DocumentStore.lifecycle, first, isStarted]

end Documents

/-! ### Texts and documents -/

/-- The text of a document that was found. -/
def StoredDocument.text? : StoredDocument → Option String
  | .found text => some text
  | .missing | .failed _ => none

/-- The text listed for a type; of several texts the last one counts. -/
def textIn (type : String) : List (String × StoredDocument) → Option String
  | [] => none
  | (other, document) :: rest =>
    (textIn type rest).or (if type = other then document.text? else none)

/-- Of types that are listed with their documents, the texts are those of the documents. -/
theorem textIn_map (held : String → StoredDocument) (names : List String) (type : String) :
    textIn type (names.map fun name => (name, held name)) =
      if type ∈ names then (held type).text? else none := by
  induction names with
  | nil => rfl
  | cons first rest ih =>
    rw [List.map_cons, textIn, ih]
    by_cases same : type = first
    · subst same
      by_cases again : type ∈ rest <;> simp [again]
    · simp [same]

/-- Settings are those of a YAML text. -/
def Parses (text : String) (settings : Settings) : Prop := Settings.ofYaml text = .ok settings

theorem rel_or {α β : Type} {r : α → β → Prop} {a b : Option α} {x y : Option β}
    (first : Option.Rel r a x) (second : Option.Rel r b y) : Option.Rel r (a.or b) (x.or y) := by
  cases first with
  | some related => exact .some related
  | none => exact second

/-- The documents parsed are those whose texts are listed, besides those there were. -/
theorem rel_parseAll {listed : List (String × StoredDocument)} {before found : Table Settings}
    (parsed : Documents.parseAll before listed = .ok found) {type : String} {text : Option String}
    (known : Option.Rel Parses text (before.find? type)) :
    Option.Rel Parses ((textIn type listed).or text) (found.find? type) := by
  induction listed generalizing before text with
  | nil => cases parsed; exact known
  | cons entry rest ih =>
    obtain ⟨other, document⟩ := entry
    rw [textIn, Option.or_assoc]
    cases document with
    | found source =>
      simp only [Documents.parseAll] at parsed
      split at parsed
      · next settings read =>
        refine ih parsed ?_
        rw [Table.find?_put]
        split
        · exact .some read
        · exact known
      · cases parsed
    | missing => exact ih parsed (by simpa [StoredDocument.text?] using known)
    | failed reason => exact ih parsed (by simpa [StoredDocument.text?] using known)

/-! ### What readings answer and keep -/

namespace Entries

theorem find?_foldl_put {α : Type} {entries : Entries α} (ascending : entries.Ascending)
    (table : Table α) (name : String) :
    (entries.foldl (fun table entry => table.put entry.1 entry.2) table).find? name =
      (entries.find? name).or (table.find? name) := by
  induction entries generalizing table with
  | nil => rfl
  | cons entry rest ih =>
    obtain ⟨key, value⟩ := entry
    obtain ⟨before, later⟩ := List.pairwise_cons.mp ascending
    rw [List.foldl_cons, ih later, Table.find?_put, find?]
    split
    · next same =>
      subst same
      have absent : find? name rest = none := by
        rw [Option.eq_none_iff_forall_ne_some]
        intro other found
        have precedes := before _ (mem_of_find? found)
        exact String.lt_irrefl _ precedes
      rw [absent]
      rfl
    · rfl

end Entries

namespace Documents

theorem find?_kept (documents : Documents σ) (types : List String) (type : String) :
    (documents.kept types).find? type =
      if type ∈ types then documents.cache.find? type else none := by
  -- onto a table that is not empty, the documents of other types are those it had
  have onto : ∀ given : Table Settings, (types.foldl (fun given type =>
      (documents.cache.find? type).elim given (given.put type)) given).find? type =
        if type ∈ types then (documents.cache.find? type).or (given.find? type)
        else given.find? type := by
    intro given
    induction types generalizing given with
    | nil => rfl
    | cons first rest ih =>
      rw [List.foldl_cons, ih]
      by_cases same : type = first
      · subst same
        cases documents.cache.find? type <;> simp [Table.find?_put]
      · cases documents.cache.find? first <;> simp [Table.find?_put, same]
  have steps : documents.kept types = types.foldl (fun given type =>
      (documents.cache.find? type).elim given (given.put type)) .empty := by
    unfold kept
    congr 1
    funext given other
    cases documents.cache.find? other <;> rfl
  rw [steps, onto, Table.find?_empty, Option.or_none]

theorem kept_recorded (types : List String) (documents : Documents σ) (exchanges : List Exchange) :
    (documents.recorded exchanges).kept types = documents.kept types := by
  rw [kept, kept, cache_recorded]

theorem keepAll_recorded (entries : Entries Settings) (given : Table Settings)
    (documents : Documents σ) (exchanges : List Exchange) :
    keepAll entries given (documents.recorded exchanges) =
      ((keepAll entries given documents).1,
        (keepAll entries given documents).2.recorded exchanges) := by
  induction entries generalizing given documents with
  | nil => rfl
  | cons entry rest ih =>
    exact ih (given.put entry.1 (documents.keep entry.1 entry.2).1)
      (documents.keep entry.1 entry.2).2

/-- Keeping documents changes nothing but the cache, which then has them where it had none; what is
given of them is what the cache has then. -/
theorem keepAll_eq (entries : Entries Settings) (given : Table Settings) (documents : Documents σ) :
    ∃ all cache, keepAll entries given documents = (all, { documents with cache := cache }) ∧
    (∀ type, cache.find? type = (documents.cache.find? type).or (entries.find? type)) ∧
    ∀ type, all.find? type = if (entries.find? type).isSome then
      (documents.cache.find? type).or (entries.find? type) else given.find? type := by
  induction entries generalizing given documents with
  | nil =>
    exact ⟨given, documents.cache, rfl, fun type => by rw [Entries.find?_nil, Option.or_none],
      fun type => rfl⟩
  | cons entry rest ih =>
    obtain ⟨name, settings⟩ := entry
    obtain ⟨all, cache, same, kept, answered⟩ := ih (given.put name (documents.keep name settings).1)
      (documents.keep name settings).2
    refine ⟨all, cache, same, fun type => ?_, fun type => ?_⟩
    · rw [kept]
      show ((documents.cache.putIfAbsent name settings).find? type).or _ = _
      rw [Table.find?_putIfAbsent, Entries.find?]
      split
      · cases documents.cache.find? type <;> rfl
      · rfl
    · rw [answered]
      show (if _ then ((documents.cache.putIfAbsent name settings).find? type).or _ else
        (given.put name ((documents.cache.find? name).getD settings)).find? type) = _
      rw [Table.find?_putIfAbsent, Table.find?_put, Entries.find?]
      by_cases same : type = name
      · subst same
        cases documents.cache.find? type <;> simp
      · simp [same]

end Documents

namespace Reading

/-- What is wanted from the store; none if the cache has all there is to answer. -/
def wanted (cache : Table Settings) : Reading → Option (List String)
  | .get type => if cache.contains type then none else some [type]
  | .getBulk types =>
    let absent := types.filter fun type => !cache.contains type
    if absent.isEmpty then none else some absent
  | .reload types => some types

/-- The answer without any document. -/
def nothing : Reading → Answer
  | .get _ => .document (.ok none)
  | .getBulk _ | .reload _ => .documents (.ok .empty)

/-- The answer that there is an error. -/
def failed (error : DocumentError) : Reading → Answer
  | .get _ => .document (.error error)
  | .getBulk _ | .reload _ => .documents (.error error)

/-- The answer from what the cache had and what was found: a reload gives what was found, the others
prefer what they had. -/
def Gives (cache found : Table Settings) : Reading → Answer → Prop
  | .get type, answer => answer = .document (.ok ((cache.find? type).or (found.find? type)))
  | .getBulk types, answer => ∃ given, answer = .documents (.ok given) ∧ ∀ type,
      given.find? type = if type ∈ types ∨ (found.find? type).isSome then
        (cache.find? type).or (found.find? type) else none
  | .reload _, answer => answer = .documents (.ok found)

/-- What there is for a type afterwards: a reload prefers what it found, the others what was known, and
a reading of one type passes over what else the store may list. -/
def merged {α : Type} (type : String) (known found : Option α) : Reading → Option α
  | .get other => known.or (if type = other then found else none)
  | .getBulk _ => known.or found
  | .reload _ => found.or known

/-- The cache afterwards. -/
def Keeps (cache found after : Table Settings) (reading : Reading) : Prop :=
  ∀ type, after.find? type = reading.merged type (cache.find? type) (found.find? type)

end Reading

namespace Documents

variable [DocumentStore σ]

/-- The documents in the answer of a store. -/
def parsed : StoreAnswer → Except DocumentError (Table Settings)
  | .ok listed => parseAll .empty listed
  | .error error => .error (.store error)

theorem load_does {types : List String} {documents : Documents σ} {given : StoreAnswer} {store : σ}
    (asked : DocumentStore.multiGet types documents.store = (given, store)) :
    Does (load types) (load types) documents [Exchange.multiGet types given] (parsed given)
      { documents with store := store } := by
  constructor
  · unfold load
    rw [asked]
    cases given <;> rfl
  · intro before
    have written : DocumentStore.multiGet types (documents.recorded before).store =
        (given, ⟨store, before ++ [Exchange.multiGet types given]⟩) := by
      simp [DocumentStore.multiGet, recorded, asked]
    unfold load
    rw [written]
    cases given <;> rfl

/-- Reading documents again, without telling anyone. -/
def reread (types : List String) (documents : Documents σ) :
    Except DocumentError (Table Settings) × Documents σ :=
  let (ready, documents) := documents.ensureReady
  if !ready then (.ok .empty, documents)
  else
    let (loaded, documents) := documents.load types
    match loaded with
    | .error error => (.error error, documents)
    | .ok found => (.ok found, Repository.keepLoaded found documents)

end Documents

/-- Read documents; a reload is not announced here. -/
def Reading.perform [DocumentStore σ] : Reading → Documents σ → Answer × Documents σ
  | .get type, documents =>
    let (result, documents) := documents.get type
    (.document result, documents)
  | .getBulk types, documents =>
    let (result, documents) := documents.getBulk types
    (.documents result, documents)
  | .reload types, documents =>
    let (result, documents) := documents.reread types
    (.documents result, documents)

/-! ### The courses of a reading -/

/-- What a reading can be like: nothing is asked for, the gate refuses, the cache has it all, reading
from the store fails, or documents are read. -/
inductive Conduct [DocumentStore σ] (documents : Documents σ) (reading : Reading) :
    List Exchange → Answer → Documents σ → Prop
  | idle (vacuous : reading = .getBulk []) : Conduct documents reading [] reading.nothing documents
  | refused {probe after} (asks : reading ≠ .getBulk []) (gate : Gate documents probe false after) :
      Conduct documents reading probe reading.nothing after
  | known {probe after answer} (gate : Gate documents probe true after)
      (wanted : reading.wanted documents.cache = none)
      (gives : reading.Gives documents.cache .empty answer) :
      Conduct documents reading probe answer after
  | failed {probe opened types given store error} (gate : Gate documents probe true opened)
      (wanted : reading.wanted documents.cache = some types)
      (asked : DocumentStore.multiGet types opened.store = (given, store))
      (failure : Documents.parsed given = .error error) :
      Conduct documents reading (probe ++ [.multiGet types given]) (reading.failed error)
        { opened with store := store }
  | read {probe opened types listed store found answer} (cache : Table Settings)
      (gate : Gate documents probe true opened)
      (wanted : reading.wanted documents.cache = some types)
      (asked : DocumentStore.multiGet types opened.store = (.ok listed, store))
      (parsed : Documents.parseAll .empty listed = .ok found)
      (gives : reading.Gives documents.cache found answer)
      (keeps : reading.Keeps documents.cache found cache) :
      Conduct documents reading (probe ++ [.multiGet types (.ok listed)]) answer
        { opened with store := store, cache := cache }

namespace Documents

variable [DocumentStore σ]

theorem parsed_eq_ok {given : StoreAnswer} {found : Table Settings}
    (result : parsed given = .ok found) :
    ∃ listed, given = .ok listed ∧ parseAll .empty listed = .ok found := by
  cases given with
  | ok listed => exact ⟨listed, rfl, result⟩
  | error error => cases result

theorem get_does (type : String) (documents : Documents σ) : ∃ exchanges answer after,
    Conduct documents (.get type) exchanges (.document answer) after ∧
    Does (get type) (get type) documents exchanges answer after := by
  obtain ⟨probe, ready, opened, gate, plain, written⟩ := ensureReady_does documents
  have cache := gate.cache_eq
  cases ready with
  | false =>
    refine ⟨probe, .ok none, opened, .refused Reading.noConfusion gate, ?_, fun before => ?_⟩
    · simp [get, plain]
    · simp [get, written]
  | true =>
    cases known : documents.cache.find? type with
    | some settings =>
      refine ⟨probe, .ok (some settings), opened, .known gate ?_ ?_, ?_, fun before => ?_⟩
      · simp [Reading.wanted, Table.contains, known]
      · simp [Reading.Gives, known]
      · simp [get, plain, cache, known]
      · simp [get, written, cache, known]
    | none =>
      have wanted : (Reading.get type).wanted documents.cache = some [type] := by
        simp [Reading.wanted, Table.contains, known]
      rcases asked : DocumentStore.multiGet [type] opened.store with ⟨given, store⟩
      obtain ⟨loaded, loadedWritten⟩ := load_does asked
      cases result : parsed given with
      | error error =>
        refine ⟨_, .error error, _, .failed gate wanted asked result, ?_, fun before => ?_⟩
        · simp [get, plain, cache, known, loaded, result]
        · simp [get, written, cache, known, loadedWritten, result]
      | ok found =>
        obtain ⟨listed, rfl, parse⟩ := parsed_eq_ok result
        cases hit : found.find? type with
        | none =>
          refine ⟨_, .ok none, _, .read documents.cache gate wanted asked parse ?_ ?_, ?_,
            fun before => ?_⟩
          · simp [Reading.Gives, known, hit]
          · intro other
            rw [Reading.merged]
            split
            · next same => subst same; rw [known, hit]; rfl
            · exact (Option.or_none).symm
          · simp [get, plain, cache, known, loaded, result, hit]
          · simp [get, written, cache, known, loadedWritten, result, hit]
        | some settings =>
          refine ⟨_, .ok (some settings), _, .read
            (documents.cache.putIfAbsent type settings) gate wanted asked parse ?_ ?_, ?_,
            fun before => ?_⟩
          · simp [Reading.Gives, known, hit]
          · intro other
            rw [Table.find?_putIfAbsent, Reading.merged]
            split
            · next same => subst same; rw [known, hit]; rfl
            · exact (Option.or_none).symm
          · simp [get, plain, cache, known, loaded, result, hit, keep]
          · simp [get, written, cache, known, loadedWritten, result, hit, keep]

theorem getBulk_does (types : List String) (documents : Documents σ) : ∃ exchanges answer after,
    Conduct documents (.getBulk types) exchanges (.documents answer) after ∧
    Does (getBulk types) (getBulk types) documents exchanges answer after := by
  by_cases empty : types = []
  · subst empty
    exact ⟨[], .ok .empty, documents, .idle rfl, rfl, fun before => by rw [List.append_nil]; rfl⟩
  obtain ⟨probe, ready, opened, gate, plain, written⟩ := ensureReady_does documents
  have cache := gate.cache_eq
  cases ready with
  | false =>
    refine ⟨probe, .ok .empty, opened, .refused (by simpa using empty) gate, ?_, fun before => ?_⟩
    · simp [getBulk, empty, plain]
    · simp [getBulk, empty, written]
  | true =>
    have kept : opened.kept types = documents.kept types := by unfold Documents.kept; rw [cache]
    cases absent : (types.filter fun type => !documents.cache.contains type).isEmpty with
    | true =>
      refine ⟨probe, .ok (documents.kept types), opened, .known gate ?_ ?_, ?_, fun before => ?_⟩
      · simp [Reading.wanted, absent]
      · refine ⟨_, rfl, fun type => ?_⟩
        simp [find?_kept]
      · simp [getBulk, empty, plain, cache, kept, absent]
      · simp [getBulk, empty, written, cache, kept_recorded, kept, absent]
    | false =>
      have wanted : (Reading.getBulk types).wanted documents.cache =
          .some (types.filter fun type => !documents.cache.contains type) := by
        simp [Reading.wanted, absent]
      rcases asked : DocumentStore.multiGet (types.filter fun type => !documents.cache.contains type)
        opened.store with ⟨given, store⟩
      obtain ⟨loaded, loadedWritten⟩ := load_does asked
      cases result : parsed given with
      | error error =>
        refine ⟨_, .error error, _, .failed gate wanted asked result, ?_, fun before => ?_⟩
        · simp [getBulk, empty, plain, cache, absent, loaded, result]
        · simp [getBulk, empty, written, cache, absent, loadedWritten, result]
      | ok found =>
        obtain ⟨listed, rfl, parse⟩ := parsed_eq_ok result
        obtain ⟨all, after, every, keeps, answers⟩ := keepAll_eq found.entries
          (documents.kept types) { opened with store := store }
        simp only [cache] at every keeps answers
        refine ⟨_, .ok all, _, .read after gate wanted asked parse ⟨all, rfl, fun type => ?_⟩ keeps,
          ?_, fun before => ?_⟩
        · rw [answers, find?_kept]
          cases hit : found.entries.find? type <;> simp [Table.find?, hit]
        · simp [getBulk, empty, plain, cache, kept, absent, loaded, result, every]
        · simp [getBulk, empty, written, cache, kept_recorded, kept, absent, loadedWritten, result,
            keepAll_recorded, every]

theorem reread_does (types : List String) (documents : Documents σ) : ∃ exchanges answer after,
    Conduct documents (.reload types) exchanges (.documents answer) after ∧
    Does (reread types) (reread types) documents exchanges answer after := by
  obtain ⟨probe, ready, opened, gate, plain, written⟩ := ensureReady_does documents
  cases ready with
  | false =>
    refine ⟨probe, .ok .empty, opened, .refused Reading.noConfusion gate, ?_, fun before => ?_⟩
    · simp [reread, plain]
    · simp [reread, written]
  | true =>
    rcases asked : DocumentStore.multiGet types opened.store with ⟨given, store⟩
    obtain ⟨loaded, loadedWritten⟩ := load_does asked
    cases result : parsed given with
    | error error =>
      refine ⟨_, .error error, _, .failed gate rfl asked result, ?_, fun before => ?_⟩
      · simp [reread, plain, loaded, result]
      · simp [reread, written, loadedWritten, result]
    | ok found =>
      obtain ⟨listed, rfl, parse⟩ := parsed_eq_ok result
      have replaces := Entries.find?_foldl_put found.ascending documents.cache
      refine ⟨_, .ok found, _, .read (Repository.keepLoaded found documents).cache gate rfl asked parse
        rfl replaces, ?_, fun before => ?_⟩
      · simp [reread, plain, loaded, result, Repository.keepLoaded, gate.cache_eq]
      · simp [reread, written, loadedWritten, result, Repository.keepLoaded, gate.cache_eq]

end Documents

/-- **Every reading takes one of the courses of `Conduct`**, and writing down what it asks of the store
changes nothing. -/
theorem Reading.perform_does [DocumentStore σ] (reading : Reading) (documents : Documents σ) :
    ∃ exchanges answer after, Conduct documents reading exchanges answer after ∧
    Documents.Does reading.perform reading.perform documents exchanges answer after := by
  cases reading with
  | get type =>
    obtain ⟨exchanges, answer, after, conduct, does⟩ := documents.get_does type
    exact ⟨exchanges, _, after, conduct, does.map Answer.document⟩
  | getBulk types =>
    obtain ⟨exchanges, answer, after, conduct, does⟩ := documents.getBulk_does types
    exact ⟨exchanges, _, after, conduct, does.map Answer.documents⟩
  | reload types =>
    obtain ⟨exchanges, answer, after, conduct, does⟩ := documents.reread_does types
    exact ⟨exchanges, _, after, conduct, does.map Answer.documents⟩

/-! ### Announcements -/

namespace Repository

/-- The call of a subscription at a position, if its type is among the changed documents. -/
def callOf (changed : Table Settings) (entry : Subscription ω × Nat) : Option Call :=
  (changed.find? entry.1.type).map fun settings => ⟨entry.2, settings⟩

/-- The calls that announce changed documents: each subscription to one of them, in their order. -/
def calls (changed : Table Settings) (subscriptions : List (Subscription ω)) : List Call :=
  subscriptions.zipIdx.filterMap (callOf changed)

theorem notify_empty (subscriptions : List (Subscription ω)) (world : ω) :
    notify .empty subscriptions world = world := by
  induction subscriptions with
  | nil => rfl
  | cons subscription rest ih => exact ih

theorem calls_empty (subscriptions : List (Subscription ω)) : calls .empty subscriptions = [] :=
  List.filterMap_eq_nil_iff.mpr fun _ _ => rfl

/-- However the listeners take it, an announcement makes its calls and nothing else. -/
theorem notify_noted (changed : Table Settings) (subscriptions : List (Subscription ω))
    (position : Nat) (world : ω) (before : List Call) :
    notify changed ((subscriptions.zipIdx position).map Subscription.noted) ⟨world, before⟩ =
      ⟨notify changed subscriptions world,
        before ++ (subscriptions.zipIdx position).filterMap (callOf changed)⟩ := by
  induction subscriptions generalizing position world before with
  | nil => simp [notify]
  | cons subscription rest ih =>
    have sameType : (Subscription.noted (subscription, position)).type = subscription.type := rfl
    rw [List.zipIdx_cons, List.map_cons, List.filterMap_cons, notify, notify, sameType]
    cases told : changed.find? subscription.type with
    | none => simpa [callOf, told] using ih (position + 1) world before
    | some settings =>
      have called : ((Subscription.noted (subscription, position)).listener settings
          ⟨world, before⟩).2 =
        ⟨(subscription.listener settings world).2, before ++ [⟨position, settings⟩]⟩ := rfl
      simp [callOf, told, called, ih]

end Repository

/-- The documents that a reading announces with its answer. -/
def Reading.announced : Reading → Answer → Table Settings
  | .reload _, .documents (.ok found) => found
  | _, _ => .empty

theorem Reading.announced_nothing (reading : Reading) :
    reading.announced reading.nothing = .empty := by
  cases reading <;> rfl

/-- The reading of documents that an operation is. -/
def Operation.reading? (site : Site σ ω) : Operation σ ω → Option Reading
  | .read reading => some reading
  | .reloadSubscribed => some (.reload site.repository.subscribedTypes)
  | .subscribe _ _ | .persist _ _ | .change _ => none

namespace Site

theorem subscribedTypes_noted (site : Site σ ω) :
    (site.noted [] []).repository.subscribedTypes = site.repository.subscribedTypes := by
  have types : (site.noted [] []).repository.subscriptions.map (·.type) =
      site.repository.subscriptions.map (·.type) := by
    calc (site.repository.subscriptions.zipIdx.map Subscription.noted).map (·.type)
      _ = (site.repository.subscriptions.zipIdx.map Prod.fst).map (·.type) := by
        rw [List.map_map, List.map_map]; rfl
      _ = site.repository.subscriptions.map (·.type) := by rw [List.zipIdx_map_fst]
  unfold Repository.subscribedTypes
  rw [types]

variable [DocumentStore σ]

/-- Documents are read, and then what a reload found is announced. -/
theorem perform_read (site : Site σ ω) (reading : Reading) :
    site.perform (.read reading) =
      ((reading.perform site.documents).1,
        ⟨{ site.repository with documents := (reading.perform site.documents).2 },
          Repository.notify (reading.announced (reading.perform site.documents).1)
            site.repository.subscriptions site.world⟩) := by
  cases reading with
  | get type => simp [perform, Reading.perform, Reading.announced, Repository.notify_empty,
      Repository.get, documents]
  | getBulk types => simp [perform, Reading.perform, Reading.announced, Repository.notify_empty,
      Repository.getBulk, documents]
  | reload types =>
    rcases gate : site.repository.documents.ensureReady with ⟨ready, opened⟩
    cases ready with
    | false => simp [perform, Reading.perform, Repository.reload, Documents.reread, documents, gate,
        Reading.announced, Repository.notify_empty]
    | true =>
      rcases load : opened.load types with ⟨loaded, after⟩
      cases loaded with
      | error error => simp [perform, Reading.perform, Repository.reload, Documents.reread, documents,
          gate, load, Reading.announced, Repository.notify_empty]
      | ok found => simp [perform, Reading.perform, Repository.reload, Documents.reread, documents,
          gate, load, Reading.announced]

/-- Reloading what is subscribed to is reloading those types. -/
theorem perform_of_reading {site : Site σ ω} {operation : Operation σ ω} {reading : Reading}
    (reads : operation.reading? site = some reading) :
    site.perform operation = site.perform (.read reading) := by
  cases operation <;> cases reads <;> rfl

theorem perform_noted_of_reading {site : Site σ ω} {operation : Operation σ ω} {reading : Reading}
    (reads : operation.reading? site = some reading) (position : Nat) :
    (site.noted [] []).perform (operation.noted position) =
      (site.noted [] []).perform (.read reading) := by
  cases operation with
  | read other => cases reads; rfl
  | reloadSubscribed =>
    cases reads
    rw [← subscribedTypes_noted]
    rfl
  | subscribe _ _ | persist _ _ | change _ => cases reads

/-- An operation that reads takes a course of `Conduct` and makes the calls of its announcement, also
where everything is written down. -/
theorem perform_conduct {site : Site σ ω} {operation : Operation σ ω} {reading : Reading}
    (reads : operation.reading? site = some reading) : ∃ exchanges answer after,
    Conduct site.documents reading exchanges answer after.documents ∧
    site.perform operation = (answer, after) ∧
    (site.noted [] []).perform (operation.noted site.repository.subscriptions.length) =
      (answer, after.noted exchanges
        (Repository.calls (reading.announced answer) site.repository.subscriptions)) := by
  obtain ⟨exchanges, answer, after, conduct, plain, written⟩ := reading.perform_does site.documents
  have read : reading.perform (site.noted [] []).documents = (answer, after.recorded exchanges) :=
    written []
  have told := Repository.notify_noted (reading.announced answer) site.repository.subscriptions 0
    site.world []
  refine ⟨exchanges, answer, ⟨{ site.repository with documents := after },
    Repository.notify (reading.announced answer) site.repository.subscriptions site.world⟩,
    conduct, ?_, ?_⟩
  · rw [perform_of_reading reads, perform_read, plain]
  · rw [perform_noted_of_reading reads, perform_read, read]
    exact congrArg (fun world => (answer, Site.mk _ world)) told

/-- What an operation that reads shows of itself. -/
theorem observe_of_reading {site : Site σ ω} {operation : Operation σ ω} {reading : Reading}
    (reads : operation.reading? site = some reading) :
    Conduct site.documents reading (site.observe operation).exchanges
      (site.observe operation).answer (site.observe operation).site.documents ∧
    (site.observe operation).calls = Repository.calls
      (reading.announced (site.observe operation).answer) site.repository.subscriptions := by
  obtain ⟨exchanges, answer, after, conduct, plain, written⟩ := perform_conduct reads
  unfold observe
  rw [plain, written]
  exact ⟨conduct, rfl⟩

/-- An operation that does not read asks the store nothing, calls no listener, and leaves what is
cached and whether the store is ready. -/
theorem observe_of_no_reading {site : Site σ ω} {operation : Operation σ ω}
    (idle : operation.reading? site = none) :
    (site.observe operation).exchanges = [] ∧ (site.observe operation).calls = [] ∧
    (site.observe operation).site.documents.cache = site.documents.cache ∧
    (site.observe operation).site.documents.ready = site.documents.ready := by
  cases operation with
  | read _ | reloadSubscribed => cases idle
  | subscribe _ _ | persist _ _ | change _ => exact ⟨rfl, rfl, rfl, rfl⟩

end Site

end Gatehouse
