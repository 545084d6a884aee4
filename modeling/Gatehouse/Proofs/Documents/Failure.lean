/-
**Failed operations change nothing.**

A reading fails when the store gives no answer, or when one of the documents that it lists is
malformed, wherever this stands among others that are not. Documents that were parsed before the
malformed one are dropped with it: nothing is cached and nobody is told before all of them are read.

* `Documents.faultIn`, `Exchange.fault?`: the first fault in an answer of the store;
* `Documents.parsed_eq_error_iff`: the documents of an answer fail with the first fault in it;
* `Conduct.error?_eq`: so does a reading, and with nothing else; `Conduct.of_error`: what it leaves;
* **`failure_is_atomic`**: what an operation that fails leaves, whatever came before it.
-/

import Gatehouse.Proofs.Documents.Notification

namespace Gatehouse

variable {σ ω : Type}

/-! ### Faults -/

/-- What is wrong with a document of a type: a text that is no settings. -/
def StoredDocument.fault? (type : String) : StoredDocument → Option DocumentError
  | .found text =>
    match Settings.ofYaml text with
    | .ok _ => none
    | .error fault => some (.malformed type fault.message)
  | .missing | .failed _ => none

/-- The error of an answer. -/
def Answer.error? : Answer → Option DocumentError
  | .document (.error error) | .documents (.error error) | .done (.error error) => some error
  | .document (.ok _) | .documents (.ok _) | .done (.ok _) => none

theorem Answer.isOk_eq_false_iff {answer : Answer} :
    answer.isOk = false ↔ answer.error? ≠ none := by
  obtain (_ | _) | (_ | _) | (_ | _) := answer <;> simp [isOk, error?]

@[simp] theorem Reading.error?_nothing (reading : Reading) : reading.nothing.error? = none := by
  cases reading <;> rfl

@[simp] theorem Reading.error?_failed (reading : Reading) (error : DocumentError) :
    (reading.failed error).error? = some error := by
  cases reading <;> rfl

theorem Reading.Gives.error? {reading : Reading} {cache found : Table Settings} {answer : Answer}
    (gives : reading.Gives cache found answer) : answer.error? = none := by
  by_contra fails
  cases gives.isOk.symm.trans (Answer.isOk_eq_false_iff.mpr fails)

namespace Documents

/-- The first fault in an answer of the store. -/
def faultIn : StoreAnswer → Option DocumentError
  | .ok listed => listed.findSome? fun entry => entry.2.fault? entry.1
  | .error error => some (.store error)

theorem parseAll_eq_error_iff {before : Table Settings} {listed : List (String × StoredDocument)}
    {error : DocumentError} : parseAll before listed = .error error ↔
      (listed.findSome? fun entry => entry.2.fault? entry.1) = some error := by
  induction listed generalizing before with
  | nil => exact ⟨nofun, nofun⟩
  | cons entry rest ih =>
    obtain ⟨type, document⟩ := entry
    cases document with
    | found text =>
      rw [parseAll, List.findSome?_cons, StoredDocument.fault?]
      cases Settings.ofYaml text with
      | ok settings => exact ih
      | error fault => simp
    | missing => exact ih
    | failed reason => exact ih

/-- The documents of an answer fail exactly if there is a fault in it, with the first one. -/
theorem parsed_eq_error_iff {given : StoreAnswer} {error : DocumentError} :
    parsed given = .error error ↔ faultIn given = some error := by
  cases given with
  | ok listed => exact parseAll_eq_error_iff
  | error reason => simp [parsed, faultIn]

theorem faultIn_of_parseAll {listed : List (String × StoredDocument)} {found : Table Settings}
    (parsed : parseAll .empty listed = .ok found) : faultIn (.ok listed) = none := by
  rw [Option.eq_none_iff_forall_ne_some]
  intro error fault
  cases parsed.symm.trans (parseAll_eq_error_iff.mpr fault)

end Documents

/-- The first fault in what a store answered. -/
def Exchange.fault? : Exchange → Option DocumentError
  | .multiGet _ given => Documents.faultIn given
  | .lifecycle _ | .indexExists _ | .health _ => none

/-! ### Readings that fail -/

section Step

variable [DocumentStore σ] {documents after : Documents σ}

theorem Gate.findSome?_fault {probe : List Exchange} {ready : Bool}
    (gate : Gate documents probe ready after) : probe.findSome? Exchange.fault? = none := by
  cases gate with
  | passed _ => rfl
  | probed _ asked => cases asked <;> rfl

namespace Conduct

variable {reading : Reading} {exchanges : List Exchange} {answer : Answer}

/-- **A reading fails with the first fault in what the store answered**, and only then. -/
theorem error?_eq (conduct : Conduct documents reading exchanges answer after) :
    answer.error? = exchanges.findSome? Exchange.fault? := by
  cases conduct with
  | idle _ => exact reading.error?_nothing
  | refused _ gate => rw [reading.error?_nothing, gate.findSome?_fault]
  | known gate _ gives => rw [gives.error?, gate.findSome?_fault]
  | failed gate _ _ failure =>
    rw [reading.error?_failed, List.findSome?_append, gate.findSome?_fault, Option.none_or,
      List.findSome?_singleton]
    exact (Documents.parsed_eq_error_iff.mp failure).symm
  | read _ gate _ _ parsed gives _ =>
    rw [gives.error?, List.findSome?_append, gate.findSome?_fault, Option.none_or,
      List.findSome?_singleton]
    exact (Documents.faultIn_of_parseAll parsed).symm

/-- A reading that fails leaves the documents as they are, behind an open gate. -/
theorem of_error (conduct : Conduct documents reading exchanges answer after)
    (fails : answer.error? ≠ none) :
    after.cache = documents.cache ∧ after.ready = true := by
  cases conduct with
  | idle _ => exact (fails reading.error?_nothing).elim
  | refused _ _ => exact (fails reading.error?_nothing).elim
  | known _ _ gives => exact (fails gives.error?).elim
  | failed gate _ _ _ => exact ⟨gate.cache_eq, gate.ready_eq⟩
  | read _ _ _ _ _ gives _ => exact (fails gives.error?).elim

end Conduct

end Step

/-! ### Operations that fail -/

/-- Nobody is told of a reading that fails. -/
theorem Site.perform_of_error [DocumentStore σ] {site : Site σ ω} {operation : Operation σ ω}
    {reading : Reading} (reads : operation.reading? site = some reading)
    (fails : (site.perform operation).1.error? ≠ none) :
    (site.perform operation).2 = site.withDocuments (site.perform operation).2.documents := by
  rw [perform_of_reading reads, perform_read] at fails ⊢
  rw [reading.announced_of_failure (Answer.isOk_eq_false_iff.mpr fails), Repository.notify_empty]
  rfl

/-- **A failed operation changes nothing.** Whatever came before an operation and whatever the store
answers to it:

* a reading fails exactly if there is a fault in what the store answered, with the first one;
* an operation that fails leaves the site as it was, with its cache, its subscriptions and the world of
  its listeners, calls no listener, and at most opens the gate. -/
theorem failure_is_atomic [DocumentStore σ] (site : Site σ ω) (operation : Operation σ ω) :
    let occurrence := site.observe operation
    (∀ reading, operation.reading? site = some reading →
      occurrence.answer.error? = occurrence.exchanges.findSome? Exchange.fault?) ∧
    (occurrence.answer.error? ≠ none →
      occurrence.calls = [] ∧ ∃ store ready, (site.documents.ready = true → ready = true) ∧
        occurrence.site = site.withDocuments ⟨store, site.documents.cache, ready⟩) := by
  intro occurrence
  refine ⟨fun reading reads => (Site.observe_of_reading reads).1.error?_eq, fun fails => ?_⟩
  cases reads : operation.reading? site with
  | some reading =>
    obtain ⟨conduct, calls⟩ := Site.observe_of_reading reads
    obtain ⟨cache, ready⟩ := conduct.of_error fails
    have silent := reading.announced_of_failure (Answer.isOk_eq_false_iff.mpr fails)
    refine ⟨by rw [calls, silent, Repository.calls_empty], occurrence.site.documents.store, true,
      fun _ => rfl, ?_⟩
    rw [← cache, ← ready]
    exact Site.perform_of_error reads fails
  | none =>
    cases operation with
    | read _ | reloadSubscribed => cases reads
    | subscribe _ _ | change _ => exact (fails rfl).elim
    | persist _ _ => exact ⟨rfl, _, _, id, rfl⟩

/-- A malformed document between two others: none of the three is cached, and nobody is told. -/
example :
    let held := [("config", "user: spock"), ("roles", "[1, 2"), ("users", "kirk: {hash: x}")]
    let store := { MemoryStore.empty with documents := Table.ofList held }
    let told : Listener Nat := fun _ count => (.applied, count + 1)
    let site := (Site.ofStore store 0).run [.subscribe "config" told, .subscribe "users" told]
    let occurrence := site.observe (.read (.reload ["config", "roles", "users"]))
    occurrence.answer.error?.isSome = true ∧ occurrence.calls = [] ∧
      occurrence.site.documents.cache = .empty ∧ occurrence.site.world = 0 ∧
      occurrence.site.documents.ready = true := by
  decide +kernel

end Gatehouse
