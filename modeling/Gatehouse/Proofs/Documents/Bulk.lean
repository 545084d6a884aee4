/-
**Several documents at once.**

Documents can be read one by one, each of them cached before the next one is asked for, or together,
with one question for all those that are not cached. Over a store that does not change meanwhile both
come to the same: the answers, the errors and the cache.

Either way each type is answered with what there is to offer for it: the cached document, or else the
one that is held. A document that is cached on the way is the one that was on offer before, so that
the offers never change.

* `offer`: what there is to answer for a type; `Extends`: the cache with the offers for some types;
* `Conduct.of_open`: a reading through the cache, by the offers;
* **`Conduct.get_steady`**, **`Conduct.getBulk_steady`**: the two ways of reading;
* `Site.history_gets`: one type after another;
* **`getBulk_agrees_with_gets`**: several types at once.
-/

import Gatehouse.Proofs.Documents.Steady

namespace Gatehouse

variable {σ ω : Type}

/-! ### Offers -/

/-- What there is to answer for a type: nothing before the gate opens, then the cached document, or
else the one that is held. -/
def offer (held : Holding) (opens : Bool) (cache : Table Settings) (type : String) : Result :=
  if opens then
    match cache.find? type with
    | some settings => .ok (some settings)
    | none => held.result type
  else .ok none

/-- A cache that is extended by the offers for some types. -/
def Extends (held : Holding) (opens : Bool) (types : List String) (cache after : Table Settings) :
    Prop :=
  ∀ type, after.find? type =
    (if type ∈ types then (offer held opens cache type).document? else none).or (cache.find? type)

section Offers

variable {held : Holding} {opens : Bool} {types : List String} {cache after : Table Settings}
  {type : String}

theorem offer_cached {settings : Settings} (cached : cache.find? type = some settings) :
    offer held true cache type = .ok (some settings) := by
  rw [offer, if_pos rfl, cached]

theorem offer_uncached (uncached : cache.find? type = none) :
    offer held true cache type = held.result type := by
  rw [offer, if_pos rfl, uncached]

/-- There is nothing wrong with an offer from the cache. -/
theorem error?_offer (held : Holding) (cache : Table Settings) (type : String) :
    (offer held true cache type).error? =
      if !cache.contains type then (held.result type).error? else none := by
  unfold Table.contains
  cases cached : cache.find? type with
  | some settings => rw [offer_cached cached]; rfl
  | none => rw [offer_uncached cached]; rfl

theorem document?_offer_or (held : Holding) (cache : Table Settings) (type : String) :
    (offer held true cache type).document?.or (cache.find? type) =
      (offer held true cache type).document? := by
  cases cached : cache.find? type with
  | some settings => rw [offer_cached cached]; rfl
  | none => rw [Option.or_none]

/-- **Caching what is on offer leaves all offers as they are.** -/
theorem Extends.offer_eq (extended : Extends held opens types cache after) (type : String) :
    offer held opens after type = offer held opens cache type := by
  cases opens with
  | false => rfl
  | true =>
    have found := extended type
    cases cached : cache.find? type with
    | some settings =>
      rw [offer_cached cached] at found ⊢
      refine offer_cached (found.trans ?_)
      rw [cached, Option.or_some]
      split <;> rfl
    | none =>
      rw [offer_uncached cached, cached, Option.or_none] at found
      rw [offer_uncached cached]
      cases given : held.result type with
      | error error =>
        have nothing : Result.document? (.error error) = none := rfl
        rw [given, nothing, ite_self] at found
        rw [offer_uncached found, given]
      | ok document =>
        rw [given] at found
        cases later : after.find? type with
        | none => rw [offer_uncached later, given]
        | some settings =>
          rw [later] at found
          split at found
          · cases found
            exact offer_cached later
          · cases found

theorem Extends.of_unchanged (same : after = cache)
    (nothing : ∀ type ∈ types, (offer held opens cache type).document? = none) :
    Extends held opens types cache after := by
  intro type
  rw [same]
  split
  · next member => rw [nothing type member, Option.none_or]
  · rw [Option.none_or]

/-- Extending a cache by one type and then by others is extending it by all of them. -/
theorem Extends.cons {between : Table Settings} (first : Extends held opens [type] cache between)
    (rest : Extends held opens types between after) :
    Extends held opens (type :: types) cache after := by
  intro other
  rw [rest other, first other, first.offer_eq]
  by_cases here : other = type
  · subst here
    by_cases later : other ∈ types
    · simp only [later, List.mem_cons, true_or, if_true]
      rw [← Option.or_assoc, Option.or_self]
    · simp [later]
  · by_cases later : other ∈ types <;> simp [here, later]

end Offers

/-! ### Readings of a steady store -/

namespace Reading

/-- The types that a reading is about. -/
def sought : Reading → List String
  | .get type => [type]
  | .getBulk types | .reload types => types

variable {reading : Reading} {cache : Table Settings}

/-- The types that a reading is about and that are not cached. -/
def absent (reading : Reading) (cache : Table Settings) : List String :=
  reading.sought.filter fun type => !cache.contains type

theorem mem_absent_iff {type : String} :
    type ∈ reading.absent cache ↔ type ∈ reading.sought ∧ cache.find? type = none := by
  rw [absent, List.mem_filter, Table.contains, Bool.not_eq_true', Option.isSome_eq_false_iff,
    Option.isNone_iff_eq_none]

/-- A reading through the cache wants the types that are not cached. -/
theorem wanted_eq (through : ∀ types, reading ≠ .reload types) (cache : Table Settings) :
    reading.wanted cache =
      if (reading.absent cache).isEmpty then none else some (reading.absent cache) := by
  cases reading with
  | get type => cases cached : cache.contains type <;> simp [wanted, absent, sought, cached]
  | getBulk types => rfl
  | reload types => exact (through types rfl).elim

theorem absent_of_wanted_none (through : ∀ types, reading ≠ .reload types)
    (nothing : reading.wanted cache = none) : reading.absent cache = [] := by
  rw [wanted_eq through] at nothing
  by_contra nonempty
  rw [if_neg (by rwa [List.isEmpty_iff])] at nothing
  cases nothing

theorem absent_of_wanted_some (through : ∀ types, reading ≠ .reload types) {types : List String}
    (wants : reading.wanted cache = some types) : reading.absent cache = types ∧ types ≠ [] := by
  rw [wanted_eq through] at wants
  by_cases empty : reading.absent cache = []
  · rw [if_pos (by rwa [List.isEmpty_iff])] at wants
    cases wants
  · rw [if_neg (by rwa [List.isEmpty_iff])] at wants
    cases wants
    exact ⟨rfl, empty⟩

section Found

variable {held : Holding} {found after : Table Settings}
  (stored : ∀ type, found.find? type =
    if type ∈ reading.absent cache then (held.result type).document? else none)

include stored

theorem found_of_not_sought {type : String} (other : type ∉ reading.sought) :
    found.find? type = none := by
  rw [stored, if_neg fun member => other (mem_absent_iff.mp member).1]

/-- What is cached or else found of a type that is sought is what is on offer for it. -/
theorem or_found {type : String} (member : type ∈ reading.sought) :
    (cache.find? type).or (found.find? type) = (offer held true cache type).document? := by
  cases cached : cache.find? type with
  | some settings => rw [offer_cached cached]; rfl
  | none => rw [stored, offer_uncached cached, Option.none_or,
      if_pos (mem_absent_iff.mpr ⟨member, cached⟩)]

/-- A reading through the cache extends it by the offers for the types that are sought. -/
theorem Keeps.extension (keeps : reading.Keeps cache found after)
    (through : ∀ types, reading ≠ .reload types) :
    Extends held true reading.sought cache after := by
  intro type
  rw [keeps type]
  by_cases member : type ∈ reading.sought
  · rw [if_pos member, document?_offer_or, ← or_found stored member]
    cases reading with
    | get other => rw [merged, if_pos (List.mem_singleton.mp member)]
    | getBulk types => rfl
    | reload types => exact (through types rfl).elim
  · rw [if_neg member, found_of_not_sought stored member, merged_none, Option.none_or]

end Found

end Reading

section Step

variable [DocumentStore σ] {held : Holding} {opens ordered : Bool} {kind : σ → Prop}
  {documents after : Documents σ} {exchanges : List Exchange} {answer : Answer}

namespace Conduct

/-- Behind a gate that never opens there is no answer, and nothing is cached. -/
theorem of_closed {reading : Reading}
    (conduct : Conduct documents reading exchanges answer after)
    (steady : Steady held false ordered kind documents) :
    answer = reading.nothing ∧ after.cache = documents.cache := by
  cases conduct with
  | idle _ => exact ⟨rfl, rfl⟩
  | refused _ gate => exact ⟨rfl, gate.cache_eq⟩
  | known gate _ _ => cases (steady.gate gate).1
  | failed gate _ _ _ => cases (steady.gate gate).1
  | read _ gate _ _ _ _ _ => cases (steady.gate gate).1

/-- **Behind a gate that opens a reading through the cache reports the errors on offer**; without
any it finds what is held for the types that are not cached. -/
theorem of_open {reading : Reading} (conduct : Conduct documents reading exchanges answer after)
    (steady : Steady held true ordered kind documents) (through : ∀ types, reading ≠ .reload types) :
    Reports ordered reading.sought (fun type => (offer held true documents.cache type).error?)
      answer.error? ∧
    ((∃ error, answer = reading.failed error) ∨ ∃ found,
      reading.Gives documents.cache found answer ∧
      reading.Keeps documents.cache found after.cache ∧ ∀ type, found.find? type =
        if type ∈ reading.absent documents.cache then (held.result type).document? else none) := by
  have of_absent {reported : Option DocumentError} (reports : Reports ordered
      (reading.absent documents.cache) (fun type => (held.result type).error?) reported) :=
    Reports.of_filter reports (error?_offer held documents.cache)
  cases conduct with
  | idle vacuous =>
    subst vacuous
    refine ⟨.of_none (by simp [Reading.sought]), .inr ⟨.empty, ⟨.empty, rfl, fun type => ?_⟩, fun type => ?_,
      fun type => rfl⟩⟩
    · simp
    · exact (Reading.merged_none ..).symm
  | refused _ gate => cases (steady.gate gate).1
  | known gate nothing gives =>
    have nothing := Reading.absent_of_wanted_none through nothing
    refine ⟨?_, .inr ⟨.empty, gives, fun type => ?_, fun type => by rw [nothing]; rfl⟩⟩
    · rw [gives.error?]
      exact of_absent (.of_none (by simp [nothing]))
    · rw [gate.cache_eq]
      exact (Reading.merged_none ..).symm
  | @failed _ _ _ _ _ error gate asks asked failure =>
    obtain ⟨rfl, nonempty⟩ := Reading.absent_of_wanted_some through asks
    have lists := (steady.reads (steady.gate gate).2 asked).1
    refine ⟨?_, .inl ⟨error, rfl⟩⟩
    rw [Reading.error?_failed, ← Documents.parsed_eq_error_iff.mp failure]
    exact of_absent (lists.reports nonempty)
  | read cache gate asks asked parsed gives keeps =>
    obtain ⟨rfl, nonempty⟩ := Reading.absent_of_wanted_some through asks
    have lists := (steady.reads (steady.gate gate).2 asked).1
    refine ⟨?_, .inr ⟨_, gives, keeps, lists.find?_parseAll parsed⟩⟩
    rw [gives.error?, ← Documents.faultIn_of_parseAll parsed]
    exact of_absent (lists.reports nonempty)

/-- **Reading one type answers with what is on offer**, and caches it. -/
theorem get_steady {type : String} (conduct : Conduct documents (.get type) exchanges answer after)
    (steady : Steady held opens ordered kind documents) :
    answer = .document (offer held opens documents.cache type) ∧
      Extends held opens [type] documents.cache after.cache := by
  cases opens with
  | false =>
    obtain ⟨same, cache⟩ := conduct.of_closed steady
    exact ⟨same, .of_unchanged cache fun _ _ => rfl⟩
  | true =>
    obtain ⟨reports, ⟨error, failed⟩ | ⟨found, gives, keeps, stored⟩⟩ := conduct.of_open steady nofun
    · have error? := reports.eq_of_singleton
      have unchanged := (conduct.of_error (by rw [failed]; nofun)).1
      rw [failed, Reading.error?_failed, eq_comm, Result.error?_eq_some_iff] at error?
      refine ⟨by rw [failed, error?]; rfl, .of_unchanged unchanged fun other member => ?_⟩
      rw [List.mem_singleton.mp member, error?]
      rfl
    · have error? := reports.eq_of_singleton
      rw [gives.error?] at error?
      refine ⟨?_, keeps.extension stored nofun⟩
      have known := Reading.or_found stored (List.mem_singleton_self type)
      rw [Result.eq_ok error?.symm, ← known]
      exact gives

/-- **Reading several types reports the errors on offer**, or else answers with what is on offer for
each of them, and caches it. -/
theorem getBulk_steady {types : List String}
    (conduct : Conduct documents (.getBulk types) exchanges answer after)
    (steady : Steady held opens ordered kind documents) :
    Reports ordered types (fun type => (offer held opens documents.cache type).error?)
      answer.error? ∧
    (answer.error? = none → ∃ given, answer = .documents (.ok given) ∧
      (∀ type, given.find? type =
        if type ∈ types then (offer held opens documents.cache type).document? else none) ∧
      Extends held opens types documents.cache after.cache) := by
  cases opens with
  | false =>
    obtain ⟨rfl, cache⟩ := conduct.of_closed steady
    refine ⟨.of_none fun _ _ => rfl, fun _ => ⟨.empty, rfl, fun type => (ite_self _).symm,
      .of_unchanged cache fun _ _ => rfl⟩⟩
  | true =>
    obtain ⟨reports, ⟨error, rfl⟩ | ⟨found, gives, keeps, stored⟩⟩ := conduct.of_open steady nofun
    · exact ⟨reports, nofun⟩
    · refine ⟨reports, fun _ => ?_⟩
      obtain ⟨given, rfl, all⟩ := gives
      refine ⟨given, rfl, fun type => ?_, keeps.extension stored nofun⟩
      rw [all]
      by_cases member : type ∈ types
      · rw [if_pos (.inl member), if_pos member, Reading.or_found stored member]
      · have absent := Reading.found_of_not_sought stored member
        rw [absent, if_neg (by simpa using member), if_neg member]

end Conduct

end Step

/-! ### One after another -/

/-- **Reading types one after another answers with what was on offer for each of them**, and caches
it. -/
theorem Site.history_gets [DocumentStore σ] {held : Holding} {opens ordered : Bool} {kind : σ → Prop}
    {site : Site σ ω} (steady : Steady held opens ordered kind site.documents)
    (types : List String) :
    let gets := types.map fun type => Operation.read (.get type)
    ((site.history gets).map fun single => (single.operation, single.answer)) =
      types.map (fun type => (.read (.get type),
        .document (offer held opens site.documents.cache type))) ∧
    Extends held opens types site.documents.cache (site.run gets).documents.cache := by
  induction types generalizing site with
  | nil => exact ⟨rfl, .of_unchanged rfl nofun⟩
  | cons type rest ih =>
    have reads : Operation.reading? site (.read (.get type)) = some (.get type) := rfl
    have conduct := (observe_of_reading reads).1
    obtain ⟨answer, cached⟩ := conduct.get_steady steady
    obtain ⟨answers, later⟩ := ih (steady.conduct conduct)
    refine ⟨?_, cached.cons later⟩
    simp only [List.map_cons, history]
    rw [answer, answers]
    simp only [cached.offer_eq]
    rfl

/-- **Reading several types at once agrees with reading one after another.** Over a store that stays as
it is, whatever is cached and for any list of types:

* reading them at once fails exactly if one of the single readings does, with the error of one of
  these, and of the first of these if the store lists in the order of the question;
* else the documents that are given are those that the single readings give, and both ways leave the
  same cache. -/
theorem getBulk_agrees_with_gets [DocumentStore σ] {held : Holding} {opens ordered : Bool}
    {kind : σ → Prop} {site : Site σ ω} (steady : Steady held opens ordered kind site.documents)
    (types : List String) :
    let bulk := site.observe (.read (.getBulk types))
    let gets := types.map fun type => Operation.read (.get type)
    let singles := site.history gets
    Reports ordered singles (·.answer.error?) bulk.answer.error? ∧
    (bulk.answer.error? = none → ∃ given, bulk.answer = .documents (.ok given) ∧
      (∀ type settings, given.find? type = some settings ↔ ∃ single ∈ singles,
        single.operation = .read (.get type) ∧
        single.answer = .document (.ok (some settings))) ∧
      bulk.site.documents.cache = (site.run gets).documents.cache) := by
  intro bulk gets singles
  have reads : Operation.reading? site (.read (.getBulk types)) = some (.getBulk types) := rfl
  have conduct := (Site.observe_of_reading reads).1
  obtain ⟨reports, gives⟩ := conduct.getBulk_steady steady
  obtain ⟨answers, cached⟩ := Site.history_gets steady types
  refine ⟨?_, fun ok => ?_⟩
  · have paired : Reports ordered _ (fun single : Operation σ ω × Answer => single.2.error?) _ :=
      .map (fun type => (.read (.get type),
        .document (offer held opens site.documents.cache type))) reports
    rw [← answers] at paired
    exact paired.of_map
  · obtain ⟨given, same, documents, kept⟩ := gives ok
    refine ⟨given, same, fun type settings => ?_, Table.ext_find? fun type => ?_⟩
    · have listed : (∃ single ∈ singles, single.operation = .read (.get type) ∧
          single.answer = .document (.ok (some settings))) ↔
          (Operation.read (.get type), Answer.document (.ok (some settings))) ∈
            singles.map fun single => (single.operation, single.answer) := by
        simp only [List.mem_map, Prod.mk.injEq]
      rw [listed, answers, documents, List.mem_map]
      constructor
      · intro found
        split at found
        · next member => exact ⟨type, member, by rw [Result.document?_eq_some_iff.mp found]⟩
        · cases found
      · rintro ⟨other, member, same⟩
        obtain ⟨same, answer⟩ := Prod.mk.inj same
        cases same
        rw [if_pos member, Result.document?_eq_some_iff, Answer.document.inj answer]
    · rw [kept type, cached type]

/-- A store in memory with two documents, one of them cached. -/
def partlyCached : Site MemoryStore Unit :=
  let held := [("config", "user: spock"), ("users", "kirk: {hash: x}")]
  let store := { MemoryStore.empty with documents := Table.ofList held }
  (Site.ofStore store ()).run [.read (.get "config")]

/-- A type that is not cached and occurs twice, one that is cached, and one without a document. -/
theorem getBulk_agrees_partly_cached :
    let documents := partlyCached.documents
    let types := ["users", "config", "roles", "users"]
    let bulk := partlyCached.observe (.read (.getBulk types))
    let gets := types.map fun type => Operation.read (.get type)
    let singles := partlyCached.history gets
    Steady (.ok documents.store.document) documents.ensureReady.1 true (· = documents.store)
      documents ∧
    Reports true singles (·.answer.error?) bulk.answer.error? ∧
    ∃ given, bulk.answer = .documents (.ok given) ∧
      (∀ type settings, given.find? type = some settings ↔ ∃ single ∈ singles,
        single.operation = .read (.get type) ∧
        single.answer = .document (.ok (some settings))) ∧
      bulk.site.documents.cache = (partlyCached.run gets).documents.cache := by
  intro documents types bulk gets singles
  have steady := MemoryStore.steady documents
  obtain ⟨reports, gives⟩ := getBulk_agrees_with_gets steady types
  exact ⟨steady, reports, gives (by decide +kernel)⟩

/-- Two malformed documents: the first one is reported, whatever stands before it. -/
example :
    let held := [("config", "user: spock"), ("roles", "[1, 2"), ("users", "kirk: [x")]
    let store := { MemoryStore.empty with documents := Table.ofList held }
    let site := Site.ofStore store ()
    let gets := ["config", "users", "roles"].map fun type => Operation.read (.get type)
    let fails := (site.observe (.read (.getBulk ["config", "users", "roles"]))).answer.error?
    fails.isSome = true ∧ (site.history gets).map (·.answer.error?) =
      [none, fails, (site.observe (.read (.get "roles"))).answer.error?] := by
  decide +kernel

end Gatehouse
