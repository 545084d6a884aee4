/-
**The gate opens once.**

Before a store is known to be ready, every reading asks it and is answered with nothing while it
refuses. The first time that the store lets a reading pass is the last time that it is asked; from
then on it is only read.

* `Refusal`, `Admission`: the two kinds of asking whether a store is ready;
* `Gated`: the exchanges of a run, with the gate closed or open;
* `Site.gated_observe`: what one operation adds to them;
* **`gate_opens_once`**: the exchanges of every run, and what is seen of it while the gate is closed.
-/

import Gatehouse.Proofs.Documents.Conduct

namespace Gatehouse

variable {σ ω : Type}

/-! ### Shapes of exchanges -/

/-- Asking in vain whether a store is ready: the first answer that refuses is the last one. -/
inductive Refusal : List Exchange → Prop
  | notStarted {stage : Lifecycle} (refuses : stage ≠ .started) : Refusal [.lifecycle stage]
  | noIndex : Refusal [.lifecycle .started, .indexExists false]
  | notServing {health : Health} (refuses : health.isServing = false) :
      Refusal [.lifecycle .started, .indexExists true, .health health]

/-- Being told that a store is ready. -/
inductive Admission : List Exchange → Prop
  | serving {health : Health} (serves : health.isServing = true) :
      Admission [.lifecycle .started, .indexExists true, .health health]

/-- Whether documents are read in an exchange. -/
def Exchange.isRead : Exchange → Bool
  | .multiGet _ _ => true
  | .lifecycle _ | .indexExists _ | .health _ => false

/-- The exchanges of a run: refusals one after another and, if the gate is open, then one admission
and only reads. -/
def Gated (trace : List Exchange) (ready : Bool) : Prop :=
  ∃ refusals admission reads, trace = List.flatten refusals ++ admission ++ reads ∧
    (∀ refusal ∈ refusals, Refusal refusal) ∧ (∀ exchange ∈ reads, exchange.isRead = true) ∧
    match ready with
    | true => Admission admission
    | false => admission = [] ∧ reads = []

namespace Gated

theorem nil : Gated [] false :=
  ⟨[], [], [], rfl, List.forall_mem_nil _, List.forall_mem_nil _, rfl, rfl⟩

variable {trace : List Exchange}

theorem refused {probe : List Exchange} (gated : Gated trace false) (refusal : Refusal probe) :
    Gated (trace ++ probe) false := by
  obtain ⟨refusals, _, _, rfl, all, _, rfl, rfl⟩ := gated
  refine ⟨refusals ++ [probe], [], [], by simp, fun other member => ?_, List.forall_mem_nil _, rfl,
    rfl⟩
  rcases List.mem_append.mp member with earlier | last
  · exact all other earlier
  · rw [List.mem_singleton.mp last]
    exact refusal

theorem admitted {probe reads : List Exchange} (gated : Gated trace false)
    (admission : Admission probe) (only : ∀ exchange ∈ reads, exchange.isRead = true) :
    Gated (trace ++ (probe ++ reads)) true := by
  obtain ⟨refusals, _, _, rfl, all, _, rfl, rfl⟩ := gated
  exact ⟨refusals, probe, reads, by simp, all, only, admission⟩

theorem read {reads : List Exchange} (gated : Gated trace true)
    (only : ∀ exchange ∈ reads, exchange.isRead = true) : Gated (trace ++ reads) true := by
  obtain ⟨refusals, admission, earlier, rfl, all, before, admits⟩ := gated
  refine ⟨refusals, admission, earlier ++ reads, by simp, all, fun exchange member => ?_, admits⟩
  exact (List.mem_append.mp member).elim (before exchange) (only exchange)

end Gated

/-! ### One operation -/

section Step

variable [DocumentStore σ] {documents : Documents σ}

theorem Probe.refusal {store after : σ} {probe : List Exchange}
    (asked : Probe store probe false after) : Refusal probe := by
  generalize same : false = answer at asked
  cases asked with
  | notStarted _ refuses => exact .notStarted refuses
  | noIndex _ _ => exact .noIndex
  | answered _ _ _ => exact .notServing same.symm

theorem Probe.admission {store after : σ} {probe : List Exchange}
    (asked : Probe store probe true after) : Admission probe := by
  generalize same : true = answer at asked
  cases asked with
  | notStarted _ _ => cases same
  | noIndex _ _ => cases same
  | answered _ _ _ => exact .serving same.symm

/-- Unless nothing is asked for, a reading asks the gate and reads only if it is open; else there is
no answer and nothing new is cached. -/
theorem Conduct.gate {reading : Reading} {exchanges : List Exchange} {answer : Answer}
    {after : Documents σ} (conduct : Conduct documents reading exchanges answer after) :
    (reading = .getBulk [] ∧ exchanges = [] ∧ answer = reading.nothing ∧ after = documents) ∨
    ∃ probe opened reads, Gate documents probe after.ready opened ∧ exchanges = probe ++ reads ∧
      (∀ exchange ∈ reads, exchange.isRead = true) ∧
      (after.ready = false →
        reads = [] ∧ answer = reading.nothing ∧ after.cache = documents.cache) := by
  cases conduct with
  | idle vacuous => exact .inl ⟨vacuous, rfl, rfl, rfl⟩
  | refused _ gate =>
    refine .inr ⟨_, _, [], gate.ready_eq.symm ▸ gate, (List.append_nil _).symm,
      List.forall_mem_nil _, fun _ => ⟨rfl, rfl, gate.cache_eq⟩⟩
  | known gate _ _ =>
    refine .inr ⟨_, _, [], gate.ready_eq.symm ▸ gate, (List.append_nil _).symm,
      List.forall_mem_nil _, fun closed => ?_⟩
    cases gate.ready_eq.symm.trans closed
  | failed gate _ _ _ =>
    refine .inr ⟨_, _, _, gate.ready_eq.symm ▸ gate, rfl, by simp [Exchange.isRead],
      fun closed => ?_⟩
    cases gate.ready_eq.symm.trans closed
  | read _ gate _ _ _ _ _ =>
    refine .inr ⟨_, _, _, gate.ready_eq.symm ▸ gate, rfl, by simp [Exchange.isRead],
      fun closed => ?_⟩
    cases gate.ready_eq.symm.trans closed

theorem Gated.conduct {trace : List Exchange} (gated : Gated trace documents.ready)
    {reading : Reading} {exchanges : List Exchange} {answer : Answer} {after : Documents σ}
    (conduct : Conduct documents reading exchanges answer after) :
    Gated (trace ++ exchanges) after.ready := by
  rcases conduct.gate with ⟨_, rfl, _, rfl⟩ | ⟨probe, opened, reads, gate, rfl, only, closed⟩
  · rwa [List.append_nil]
  · generalize after.ready = ready at gate closed ⊢
    cases gate with
    | passed open_ =>
      rw [open_] at gated
      exact gated.read only
    | probed unready asked =>
      rw [unready] at gated
      cases ready with
      | true => exact gated.admitted asked.admission only
      | false =>
        obtain ⟨rfl, _, _⟩ := closed rfl
        rw [List.append_nil]
        exact gated.refused asked.refusal

/-- A reading that leaves the gate closed found it closed: it has asked for nothing or been refused, it
has no answer and nothing new is cached. -/
theorem Conduct.closed {reading : Reading} {exchanges : List Exchange} {answer : Answer}
    {after : Documents σ} (conduct : Conduct documents reading exchanges answer after)
    (closed : after.ready = false) :
    documents.ready = false ∧ (reading ≠ .getBulk [] → Refusal exchanges) ∧
      answer = reading.nothing ∧ after.cache = documents.cache := by
  rcases conduct.gate with ⟨vacuous, _, nothing, rfl⟩ | ⟨probe, opened, reads, gate, rfl, _, rest⟩
  · exact ⟨closed, fun asks => (asks vacuous).elim, nothing, rfl⟩
  · obtain ⟨rfl, nothing, same⟩ := rest closed
    rw [closed] at gate
    cases gate with
    | probed unready asked =>
      refine ⟨unready, fun _ => ?_, nothing, same⟩
      rw [List.append_nil]
      exact asked.refusal

end Step

namespace Site

variable [DocumentStore σ]

theorem gated_observe {site : Site σ ω} {trace : List Exchange}
    (gated : Gated trace site.documents.ready) (operation : Operation σ ω) :
    Gated (trace ++ (site.observe operation).exchanges)
      (site.observe operation).site.documents.ready := by
  cases reads : operation.reading? site with
  | none =>
    obtain ⟨asked, _, _, ready⟩ := observe_of_no_reading reads
    rwa [asked, ready, List.append_nil]
  | some reading => exact gated.conduct (observe_of_reading reads).1

/-- An operation that leaves the gate closed found it closed, caches nothing and calls no listener. -/
theorem observe_closed {site : Site σ ω} {operation : Operation σ ω}
    (closed : (site.observe operation).site.documents.ready = false) :
    site.documents.ready = false ∧
    (site.observe operation).site.documents.cache = site.documents.cache ∧
    (site.observe operation).calls = [] := by
  cases reads : operation.reading? site with
  | none =>
    obtain ⟨_, calls, cache, ready⟩ := observe_of_no_reading reads
    exact ⟨ready.symm.trans closed, cache, calls⟩
  | some reading =>
    obtain ⟨conduct, calls⟩ := observe_of_reading reads
    obtain ⟨before, _, nothing, cache⟩ := conduct.closed closed
    refine ⟨before, cache, ?_⟩
    rw [calls, nothing, Reading.announced_nothing, Repository.calls_empty]

end Site

/-- What a run from a new repository keeps while the gate is closed. -/
structure Awaiting (past : List (Occurrence σ ω)) (site : Site σ ω) : Prop where
  gated : Gated (past.flatMap (·.exchanges)) site.documents.ready
  fresh : site.documents.ready = false → site.documents.cache = .empty

theorem Awaiting.observe [DocumentStore σ] (past : List (Occurrence σ ω)) (site : Site σ ω)
    (operation : Operation σ ω) (awaiting : Awaiting past site) :
    Awaiting (past ++ [site.observe operation]) (site.perform operation).2 where
  gated := by
    have added := Site.gated_observe awaiting.gated operation
    rwa [List.flatMap_append, List.flatMap_singleton]
  fresh := fun closed =>
    have ⟨before, cache, _⟩ := Site.observe_closed closed
    cache.trans (awaiting.fresh before)

/-- **The gate opens once.** At every point of a run from a new repository the exchanges so far are
refusals and, exactly if the repository holds the store to be ready, one admission and only reads
after it. While it does not, nothing is cached, no listener is called, and every reading has been
refused, unless it was of no types, and answered with nothing. -/
theorem gate_opens_once [DocumentStore σ] (store : σ) (world : ω)
    (operations : List (Operation σ ω)) :
    let history := (Site.ofStore store world).history operations
    Gated (history.flatMap (·.exchanges))
      ((Site.ofStore store world).run operations).documents.ready ∧
    ∀ before occurrence after, history = before ++ occurrence :: after →
      Gated ((before ++ [occurrence]).flatMap (·.exchanges)) occurrence.site.documents.ready ∧
      (occurrence.site.documents.ready = false →
        occurrence.site.documents.cache = .empty ∧ occurrence.calls = [] ∧
        (∀ reading, occurrence.operation = .read reading →
          occurrence.answer = reading.nothing ∧
          (reading ≠ .getBulk [] → Refusal occurrence.exchanges)) ∧
        (occurrence.operation = .reloadSubscribed →
          occurrence.answer = .documents (.ok .empty) ∧ Refusal occurrence.exchanges)) := by
  intro history
  have start : Awaiting [] (Site.ofStore store world) := ⟨.nil, fun _ => rfl⟩
  refine ⟨(Site.history_keeps Awaiting Awaiting.observe start operations).gated,
    fun before occurrence after split => ?_⟩
  obtain ⟨present, awaiting, same⟩ := Site.history_split Awaiting Awaiting.observe start split
  generalize occurrence.operation = operation at same
  subst same
  have next := awaiting.observe before present operation
  refine ⟨next.gated, fun closed => ⟨next.fresh closed, (Site.observe_closed closed).2.2,
    fun reading reads => ?_, fun reads => ?_⟩⟩
  · obtain rfl : operation = .read reading := reads
    obtain ⟨_, refusal, nothing, _⟩ := (Site.observe_of_reading rfl).1.closed closed
    exact ⟨nothing, refusal⟩
  · obtain rfl : operation = .reloadSubscribed := reads
    obtain ⟨_, refusal, nothing, _⟩ := (Site.observe_of_reading rfl).1.closed closed
    exact ⟨nothing, refusal Reading.noConfusion⟩

/-- A store that is started, then serves, and stops when it is no longer asked about it. -/
example :
    let set lifecycle health : Operation MemoryStore Unit :=
      .change fun store => { store with lifecycle := lifecycle, health := health }
    let operations := [set .initializing .green, .read (.get "config"), set .started .timedOut,
      .read (.reload ["config"]), set .started .yellow, .read (.getBulk ["config"]),
      set .stopped .red, .reloadSubscribed]
    ((Site.ofStore MemoryStore.empty ()).history operations).flatMap (·.exchanges) =
      [.lifecycle .initializing, .lifecycle .started, .indexExists true, .health .timedOut,
        .lifecycle .started, .indexExists true, .health .yellow,
        .multiGet ["config"] (.ok [("config", .missing)]), .multiGet [] (.ok [])] := by
  decide +kernel

end Gatehouse
