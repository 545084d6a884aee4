/-
**What a reload repairs.**

Over a store in memory, a reload sets right what the cache has of a document that the store holds: from
then on, until the documents in the store change again, reading its type gives the document of the
stored text.

A document that has been removed from the store is not found, and what is not found replaces nothing.
It stays in the cache, and reading its type goes on giving it after every reload, as
`removed_survives_reload` shows. So the statement about the types that the store holds nothing for is
that a reload leaves what reading them gives as it was.

* `Site.Mirrors`: reading a type gives what the store holds;
* `Settled`: what reading a type gives is settled as long as the documents in the store stay;
* **`get_after_reload`**: what reading a type gives after a reload of it.
-/

import Gatehouse.Proofs.Documents.Provenance

namespace Gatehouse

variable {ω : Type}

/-! ### A store in memory -/

namespace MemoryStore

@[simp] theorem text?_document (store : MemoryStore) (type : String) :
    (store.document type).text? = store.documents.find? type := by
  unfold document
  cases store.documents.find? type <;> rfl

/-- Of the types asked for, the texts listed are those that the store holds. -/
theorem textIn_listed (store : MemoryStore) (types : List String) (type : String) :
    textIn type (types.map fun other => (other, store.document other)) =
      if type ∈ types then store.documents.find? type else none := by
  rw [textIn_map, text?_document]

theorem multiGet_eq {types : List String} {store after : MemoryStore} {given : StoreAnswer}
    (asked : DocumentStore.multiGet types store = (given, after)) :
    given = .ok (types.map fun other => (other, store.document other)) ∧ after = store := by
  cases asked
  exact ⟨rfl, rfl⟩

end MemoryStore

namespace Conduct

variable {documents after : Documents MemoryStore} {reading : Reading} {exchanges : List Exchange}
  {answer : Answer}

/-- Reading behind an open gate leaves the store and the gate, and a text that was found is the stored
one. -/
theorem of_memory (conduct : Conduct documents reading exchanges answer after)
    (ready : documents.ready = true) :
    after.store = documents.store ∧ after.ready = true ∧ ∀ type text,
      textFound type exchanges answer = some text →
      documents.store.documents.find? type = some text := by
  unfold textFound
  cases conduct with
  | idle _ =>
    refine ⟨rfl, ready, fun type text found => ?_⟩
    rw [List.findSome?_nil, ite_self] at found
    cases found
  | refused _ gate => cases (gate.of_ready ready).2.1
  | known gate _ _ =>
    obtain ⟨rfl, _, rfl⟩ := gate.of_ready ready
    refine ⟨rfl, ready, fun type text found => ?_⟩
    rw [List.findSome?_nil, ite_self] at found
    cases found
  | failed gate _ asked _ =>
    obtain ⟨_, _, rfl⟩ := gate.of_ready ready
    obtain ⟨_, rfl⟩ := MemoryStore.multiGet_eq asked
    refine ⟨rfl, ready, fun type text found => ?_⟩
    rw [Reading.isOk_failed, if_neg Bool.false_ne_true] at found
    cases found
  | read _ gate _ asked _ gives _ =>
    obtain ⟨rfl, _, rfl⟩ := gate.of_ready ready
    obtain ⟨listed, rfl⟩ := MemoryStore.multiGet_eq asked
    cases listed
    refine ⟨rfl, ready, fun type text found => ?_⟩
    rw [gives.isOk, if_pos rfl, List.nil_append, List.findSome?_singleton] at found
    have stored := found.symm.trans (MemoryStore.textIn_listed _ _ type)
    split at stored
    · exact stored.symm
    · cases stored

theorem reload_memory {types : List String} {type : String}
    (conduct : Conduct documents (.reload types) exchanges answer after)
    (ready : documents.ready = true) (succeeds : answer.isOk = true) (member : type ∈ types) :
    textFound type exchanges answer = documents.store.documents.find? type := by
  unfold textFound
  cases conduct with
  | idle vacuous => cases vacuous
  | refused _ gate => cases (gate.of_ready ready).2.1
  | known _ wanted _ => cases wanted
  | failed _ _ _ _ => cases (Reading.isOk_failed _ _).symm.trans succeeds
  | read _ gate wanted asked _ _ _ =>
    obtain ⟨rfl, _, rfl⟩ := gate.of_ready ready
    obtain ⟨listed, rfl⟩ := MemoryStore.multiGet_eq asked
    cases listed
    cases wanted
    rw [succeeds, if_pos rfl, List.nil_append, List.findSome?_singleton]
    exact (MemoryStore.textIn_listed _ _ type).trans (if_pos member)

/-- Reading a type gives nothing if it is neither cached nor stored. -/
theorem get_absent {type : String} (conduct : Conduct documents (.get type) exchanges answer after)
    (ready : documents.ready = true) (uncached : documents.cache.find? type = none)
    (absent : documents.store.documents.find? type = none) : answer = .document (.ok none) := by
  have wanted : (Reading.get type).wanted documents.cache = some [type] := by
    simp [Reading.wanted, Table.contains, uncached]
  have missing : documents.store.document type = .missing := by
    unfold MemoryStore.document
    rw [absent]
  generalize same : Reading.get type = reading at conduct wanted
  cases conduct with
  | idle vacuous => cases same.trans vacuous
  | refused _ gate => cases (gate.of_ready ready).2.1
  | known _ nothing _ => cases nothing.symm.trans wanted
  | failed gate asksFor asked failure =>
    obtain ⟨_, _, rfl⟩ := gate.of_ready ready
    obtain ⟨rfl, _⟩ := MemoryStore.multiGet_eq asked
    cases asksFor.symm.trans wanted
    rw [List.map_singleton, missing] at failure
    cases failure
  | read _ gate _ asked parsed gives _ =>
    obtain ⟨_, _, rfl⟩ := gate.of_ready ready
    obtain ⟨listed, _⟩ := MemoryStore.multiGet_eq asked
    cases listed
    subst same
    have nothing := rel_found parsed type
    rw [MemoryStore.textIn_listed, absent, ite_self] at nothing
    rw [Reading.Gives, uncached, Option.none_or] at gives
    rw [gives]
    generalize Table.find? _ type = found at nothing
    cases nothing
    rfl

end Conduct

/-! ### What stays -/

/-- Behind an open gate the cache has a document for a type, or none, in agreement with the documents
that the store holds. -/
structure Settled (held : Table String) (type : String) (known : Option Settings)
    (site : Site MemoryStore ω) : Prop where
  stored : site.documents.store.documents = held
  ready : site.documents.ready = true
  cached : site.documents.cache.find? type = known
  agrees : ∀ text, held.find? type = some text →
    ∃ settings, known = some settings ∧ Parses text settings

namespace Settled

variable {held : Table String} {type : String} {known : Option Settings} {site : Site MemoryStore ω}

/-- An operation that leaves the documents in the store leaves what is settled. -/
theorem perform (settled : Settled held type known site) {operation : Operation MemoryStore ω}
    (still : ∀ edit, operation = .change edit → ∀ store, (edit store).documents = store.documents) :
    Settled held type known (site.perform operation).2 := by
  cases reads : operation.reading? site with
  | none =>
    obtain ⟨_, _, cache, ready⟩ := Site.observe_of_no_reading reads
    refine ⟨?_, ready.trans settled.ready, ?_, settled.agrees⟩
    · cases operation with
      | read _ | reloadSubscribed => cases reads
      | subscribe _ _ | persist _ _ => exact settled.stored
      | change edit => exact (still edit rfl _).trans settled.stored
    · show (site.observe operation).site.documents.cache.find? type = known
      rw [cache]
      exact settled.cached
  | some reading =>
    have conduct := (Site.observe_of_reading reads).1
    obtain ⟨store, ready, texts⟩ := conduct.of_memory settled.ready
    obtain ⟨found, parses, cached⟩ := conduct.merges type
    refine ⟨(congrArg MemoryStore.documents store).trans settled.stored, ready, ?_, settled.agrees⟩
    rw [settled.cached] at cached
    refine cached.trans ?_
    have stored := texts type
    generalize textFound type _ _ = text at parses stored
    cases parses with
    | none => exact reading.merged_none type known
    | some same =>
      -- the text that was found is the one that is held, so its document is the known one
      have holds : held.find? type = some _ := settled.stored ▸ stored _ rfl
      obtain ⟨settings, rfl, parses⟩ := settled.agrees _ holds
      rw [Except.ok.inj (same.symm.trans parses)]
      exact reading.merged_self type settings

theorem run (settled : Settled held type known site) {operations : List (Operation MemoryStore ω)}
    (still : ∀ edit, .change edit ∈ operations → ∀ store, (edit store).documents = store.documents) :
    Settled held type known (site.run operations) := by
  induction operations generalizing site with
  | nil => exact settled
  | cons operation rest ih =>
    refine ih (settled.perform fun edit same => ?_) fun edit member => ?_
    · subst same
      exact still edit List.mem_cons_self
    · exact still edit (List.mem_cons_of_mem _ member)

theorem get (settled : Settled held type known site) :
    (site.perform (.read (.get type))).1 = .document (.ok known) := by
  have reads : Operation.reading? site (.read (.get type)) = some (.get type) := rfl
  have conduct := (Site.observe_of_reading reads).1
  cases known with
  | some settings => exact conduct.get_cached settled.ready settled.cached
  | none =>
    have absent : site.documents.store.documents.find? type = none := by
      rw [settled.stored, Option.eq_none_iff_forall_ne_some]
      intro text holds
      obtain ⟨_, impossible, _⟩ := settled.agrees text holds
      cases impossible
    exact conduct.get_absent settled.ready settled.cached absent

end Settled

/-! ### After a reload -/

/-- Reading a type gives what the store holds: the document of its text, or none if it has none. -/
def Site.Mirrors (site : Site MemoryStore ω) (type : String) : Prop :=
  ∃ given, (site.perform (.read (.get type))).1 = .document (.ok given) ∧
    Option.Rel Parses (site.documents.store.documents.find? type) given

/-- **What reading a type gives after a successful reload of it**, for as long as the documents in the
store stay what they are: what the store holds, if it holds a document of the type, and else what the
cache had before the reload. -/
theorem get_after_reload {site : Site MemoryStore ω} {types : List String} {type : String}
    {loaded : Table Settings} {later : List (Operation MemoryStore ω)}
    (ready : site.documents.ready = true) (member : type ∈ types)
    (answered : (site.perform (.read (.reload types))).1 = .documents (.ok loaded))
    (still : ∀ edit, .change edit ∈ later → ∀ store, (edit store).documents = store.documents) :
    let after := (site.perform (.read (.reload types))).2.run later
    after.documents.store.documents = site.documents.store.documents ∧
    (∀ text, site.documents.store.documents.find? type = some text → after.Mirrors type) ∧
    (site.documents.store.documents.find? type = none →
      (after.perform (.read (.get type))).1 = .document (.ok (site.documents.cache.find? type))) := by
  intro after
  have reads : Operation.reading? site (.read (.reload types)) = some (.reload types) := rfl
  have conduct := (Site.observe_of_reading reads).1
  obtain ⟨store, opened, _⟩ := conduct.of_memory ready
  obtain ⟨found, parses, cached⟩ := conduct.merges type
  have succeeds : (site.perform (.read (.reload types))).1.isOk = true := by rw [answered]; rfl
  rw [conduct.reload_memory ready succeeds member] at parses
  -- right after the reload, and then along the later operations
  have settled : Settled site.documents.store.documents type
      (found.or (site.documents.cache.find? type)) after := by
    refine Settled.run ⟨congrArg MemoryStore.documents store, opened, cached, ?_⟩ still
    intro text holds
    rw [holds] at parses
    cases parses with
    | some parses => exact ⟨_, rfl, parses⟩
  refine ⟨settled.stored, fun text holds => ⟨_, settled.get, ?_⟩, fun absent => ?_⟩
  · rw [settled.stored, holds]
    rw [holds] at parses
    cases parses with
    | some parses => exact .some parses
  · rw [absent] at parses
    cases parses
    exact settled.get

/-- A repository that has read its users, over a store whose documents have been replaced since. -/
def usersReplaced (documents : Table String) : Site MemoryStore Unit :=
  let store := { MemoryStore.empty with documents := Table.empty.put usersType "spock: {hash: x}" }
  (Site.ofStore store ()).run
    [.read (.get usersType), .change fun store => { store with documents := documents }]

theorem get_after_reload_of_kirk :
    let site := usersReplaced (Table.empty.put usersType "kirk: {hash: y}")
    let kirk := (Settings.ofYaml "kirk: {hash: y}").toOption.getD .empty
    let later := [.read (.get usersType), .change fun store => { store with health := .red }]
    site.documents.ready = true ∧ usersType ∈ [usersType] ∧
    (site.perform (.read (.reload [usersType]))).1 =
      .documents (.ok (Table.empty.put usersType kirk)) ∧
    ((site.perform (.read (.reload [usersType]))).2.run later).Mirrors usersType := by
  intro site kirk later
  have ready : site.documents.ready = true := by decide +kernel
  have answered : (site.perform (.read (.reload [usersType]))).1 =
      .documents (.ok (Table.empty.put usersType kirk)) := by decide +kernel
  have holds : site.documents.store.documents.find? usersType = some "kirk: {hash: y}" := by
    decide +kernel
  have still : ∀ edit, .change edit ∈ later →
      ∀ store : MemoryStore, (edit store).documents = store.documents := by
    intro edit member
    rcases List.mem_cons.mp member with read | changed
    · cases read
    · cases List.mem_singleton.mp changed
      exact fun _ => rfl
  have member := List.mem_singleton_self usersType
  exact ⟨ready, member, answered, (get_after_reload ready member answered still).2.1 _ holds⟩

/-- Users that were removed from the store are still given after a reload that did not find them. -/
theorem removed_survives_reload :
    let site := usersReplaced .empty
    let after := (site.perform (.read (.reload [usersType]))).2
    site.documents.ready = true ∧
    (site.perform (.read (.reload [usersType]))).1 = .documents (.ok .empty) ∧
    after.documents.store.documents.find? usersType = none ∧
    (after.perform (.read (.get usersType))).1 =
      .document (.ok (Settings.ofYaml "spock: {hash: x}").toOption) ∧
    ¬ after.Mirrors usersType := by
  intro site after
  have removed : after.documents.store.documents.find? usersType = none := by decide +kernel
  have given : (after.perform (.read (.get usersType))).1 =
      .document (.ok (Settings.ofYaml "spock: {hash: x}").toOption) := by decide +kernel
  refine ⟨by decide +kernel, by decide +kernel, removed, given, ?_⟩
  rintro ⟨result, shown, mirrors⟩
  rw [removed] at mirrors
  cases mirrors
  have readable : (Settings.ofYaml "spock: {hash: x}").toOption ≠ none := by decide +kernel
  exact readable (Except.ok.inj (Answer.document.inj (given.symm.trans shown)))

end Gatehouse
