/-
**What one request changes.**

A request moves the counters and the sessions. Its outcome stands for one event, which is counted
once. Besides it, a failed attempt is counted once for each domain that the walk reaches and that
fails, and nothing else is. Sessions change by the end of the presented one, if its time is over,
and by the one that is issued when a domain authenticates the caller.

* `Outcome.event?`: the event that an outcome stands for;
* `Domain.Fails`, `FailsOn`: a domain fails, and the walk of a chain finds one that does;
* `events_walk`: what a walk counts; `tally_authenticate`: what a request counts;
* `MemorySessions.settled`: a store without the presented session, if its time is over;
* `store_authenticate`: what becomes of a store of sessions;
* **`tally_and_sessions_of_authenticate`**: all changes, under the chain of any run of documents.
-/

import Gatehouse.Proofs.Chain.Rebuild
import Gatehouse.Proofs.Chain.Walk
import Gatehouse.Proofs.Session.Ledger
import Mathlib.Data.List.Count

namespace Gatehouse

variable {δ : Type}

/-! ### Counting -/

theorem Tally.count_foldl_record (event : Event) (events : List Event) (tally : Tally) :
    Tally.count event (events.foldl (fun tally event => tally.record event) tally) =
      Tally.count event tally + events.count event := by
  induction events generalizing tally with
  | nil => rfl
  | cons first rest ih =>
    rw [List.foldl_cons, ih, count_record, List.count_cons]
    by_cases same : event = first
    · simp [same]; omega
    · simp [same, Ne.symm same]

/-- The event that an outcome stands for. -/
def Outcome.event? : Outcome → Option Event
  | .authenticated _ _ (some domain) => some (.attempt domain true)
  | .authenticated _ (some _) none => some .sessionHit
  | .authenticated _ none none => some .anonymousGrant
  | .challenged domain _ => some (.challenge domain)
  | .rejected => some .rejection
  | .unavailable => none

/-- The event that a decision stands for. -/
def Decision.event? : Decision → Option Event
  | .accepted domain _ => some (.attempt domain true)
  | .asked domain _ => some (.challenge domain)
  | .exhausted => none

/-! ### Domains that fail -/

namespace Domain

/-- The domain cannot read the request, or its backend refuses what it reads. -/
def Fails (domain : Domain δ) (now : Nat) (request : Request) (documents : δ) : Prop :=
  (∃ error, domain.extractor.extract now request = .error error) ∨
    ∃ credentials error, domain.extractor.extract now request = .ok (some credentials) ∧
      (domain.backend.authenticate credentials documents).1 = .error error

variable {domain : Domain δ} {now : Nat} {request : Request} {documents : δ}

theorem Fails.passes (fails : domain.Fails now request documents) :
    ∃ later, domain.Passes now request documents later := by
  rcases fails with ⟨error, extracted⟩ | ⟨credentials, error, extracted, refused⟩
  · exact ⟨documents, .unreadable extracted⟩
  · have verdict : domain.backend.authenticate credentials documents =
        (.error error, (domain.backend.authenticate credentials documents).2) := by
      rw [← refused]
    exact ⟨_, .refused extracted verdict⟩

theorem not_passes_of_accepts {identity : Identity} {later : δ}
    (accepts : domain.Accepts now request documents identity) :
    ¬ domain.Passes now request documents later := by
  intro passes
  have accepted := Trial.ofDomain_of_accepts accepts
  rcases (Trial.ofDomain_of_passes passes).1 with silent | ⟨error, failed⟩
  · rw [accepted] at silent; cases silent
  · rw [accepted] at failed; cases failed

theorem not_passes_of_asks {challenge : Challenge} {later : δ}
    (asks : domain.Asks now request challenge) :
    ¬ domain.Passes now request documents later := by
  intro passes
  have asked : (Trial.ofDomain domain now request documents).1 = .asked challenge :=
    Trial.ofDomain_of_asks asks
  rcases (Trial.ofDomain_of_passes passes).1 with silent | ⟨error, failed⟩
  · rw [asked] at silent; cases silent
  · rw [asked] at failed; cases failed

/-- A trial is a failed one exactly when the domain fails. -/
theorem exists_failed_iff :
    (∃ error, (Trial.ofDomain domain now request documents).1 = .failed error) ↔
      domain.Fails now request documents := by
  unfold Trial.ofDomain Fails
  cases extracted : domain.extractor.extract now request with
  | error error => simp
  | ok found =>
    cases found with
    | none =>
      have quiet : ∀ error, Trial.ofSilence domain ≠ .failed error := by
        intro error
        unfold Trial.ofSilence
        split
        · split <;> exact Trial.noConfusion
        · exact Trial.noConfusion
      simp [quiet]
    | some credentials =>
      cases verdict : domain.backend.authenticate credentials documents with
      | mk result later => cases result <;> simp [verdict]

end Domain

/-- The walk of a chain finds a domain of the given name that fails. -/
def FailsOn (now : Nat) (request : Request) (domains : List (Domain δ)) (documents : δ)
    (name : String) : Prop :=
  ∃ domain reached, Reaches now request domains documents domain reached ∧
    domain.name = name ∧ domain.Fails now request reached

section FailsOn

variable {now : Nat} {request : Request} {first : Domain δ} {rest : List (Domain δ)}
  {documents : δ} {name : String}

/-- Behind a domain that does not pass nothing is found, and such a domain does not fail. -/
theorem not_failsOn_cons (decides : ∀ later, ¬ first.Passes now request documents later) :
    ¬ FailsOn now request (first :: rest) documents name := by
  rintro ⟨domain, reached, reaches, _, fails⟩
  rcases reaches_cons_iff.mp reaches with ⟨rfl, rfl⟩ | ⟨between, passes, _⟩
  · obtain ⟨later, passes⟩ := fails.passes
    exact decides later passes
  · exact decides between passes

theorem failsOn_cons_iff {later : δ} (passes : first.Passes now request documents later) :
    FailsOn now request (first :: rest) documents name ↔
      (first.name = name ∧ first.Fails now request documents) ∨
        FailsOn now request rest later name := by
  have left := (Trial.ofDomain_of_passes passes).2
  constructor
  · rintro ⟨domain, reached, reaches, named, fails⟩
    rcases reaches_cons_iff.mp reaches with ⟨rfl, rfl⟩ | ⟨between, here, there⟩
    · exact Or.inl ⟨named, fails⟩
    · rw [← (Trial.ofDomain_of_passes here).2, left] at there
      exact Or.inr ⟨domain, reached, there, named, fails⟩
  · rintro (⟨named, fails⟩ | ⟨domain, reached, there, named, fails⟩)
    · exact ⟨first, documents, reaches_cons_iff.mpr (Or.inl ⟨rfl, rfl⟩), named, fails⟩
    · exact ⟨domain, reached, reaches_cons_iff.mpr (Or.inr ⟨later, passes, there⟩), named, fails⟩

end FailsOn

/-! ### What a walk counts -/

section Walk

variable {now : Nat} {request : Request} {first : Domain δ} {rest : List (Domain δ)}
  {documents : δ}

theorem events_walk_cons_of_accepts {identity : Identity}
    (accepts : first.Accepts now request documents identity) :
    (Decision.walk now request (first :: rest) documents).2.1 = [.attempt first.name true] := by
  rw [Decision.walk]
  simp only [Trial.ofDomain_of_accepts accepts]
  rfl

theorem events_walk_cons_of_asks {challenge : Challenge}
    (asks : first.Asks now request challenge) :
    (Decision.walk now request (first :: rest) documents).2.1 = [.challenge first.name] := by
  rw [Decision.walk]
  simp only [Trial.ofDomain_of_asks asks]
  rfl

theorem events_walk_cons_of_passes {later : δ}
    (passes : first.Passes now request documents later) :
    (Decision.walk now request (first :: rest) documents).2.1 =
      (Trial.ofDomain first now request documents).1.events first.name ++
        (Decision.walk now request rest later).2.1 := by
  obtain ⟨undecided, left⟩ := Trial.ofDomain_of_passes passes
  rw [Decision.walk]
  rcases undecided with silent | ⟨error, failed⟩
  · simp only [silent, left]
  · simp only [failed, left]

end Walk

/-- A walk counts a failed attempt for each domain that fails on it, in the order of the chain, and
then what it decides. -/
theorem events_walk (now : Nat) (request : Request) (domains : List (Domain δ)) (documents : δ) :
    ∃ failed : List String, failed.Sublist (domains.map (·.name)) ∧
      (∀ name, name ∈ failed ↔ FailsOn now request domains documents name) ∧
      (Decision.walk now request domains documents).2.1 = failed.map (.attempt · false) ++
        (Decision.walk now request domains documents).1.event?.toList := by
  induction domains generalizing documents with
  | nil =>
    refine ⟨[], .slnil, fun name => iff_of_false List.not_mem_nil ?_, rfl⟩
    rintro ⟨domain, reached, reaches, _⟩
    exact List.not_mem_nil reaches.mem
  | cons first rest ih =>
    -- a domain that decides ends the walk, and nothing fails on it
    have decided : (∀ later, ¬ first.Passes now request documents later) → ∀ name,
        name ∈ [] ↔ FailsOn now request (first :: rest) documents name := fun decides name =>
      iff_of_false List.not_mem_nil (not_failsOn_cons decides)
    rcases Trial.ofDomain_cases first now request documents with
      ⟨identity, _, accepts⟩ | ⟨challenge, _, asks⟩ | ⟨undecided, passes⟩
    · refine ⟨[], List.nil_sublist _, decided fun _ => Domain.not_passes_of_accepts accepts, ?_⟩
      rw [events_walk_cons_of_accepts accepts, Decision.walk_cons_of_accepts accepts]
      rfl
    · refine ⟨[], List.nil_sublist _, decided fun _ => Domain.not_passes_of_asks asks, ?_⟩
      rw [events_walk_cons_of_asks asks, Decision.walk_cons_of_asks asks]
      rfl
    · obtain ⟨failed, ordered, found, events⟩ := ih (Trial.ofDomain first now request documents).2
      rw [events_walk_cons_of_passes passes, Decision.walk_cons_of_passes passes, events]
      rcases undecided with silent | ⟨error, failure⟩
      · have well : ¬ first.Fails now request documents := by
          rw [← Domain.exists_failed_iff, silent]
          rintro ⟨error, failure⟩
          cases failure
        refine ⟨failed, ordered.cons _, fun name => ?_, by rw [silent]; rfl⟩
        rw [failsOn_cons_iff passes, found]
        exact ⟨Or.inr, fun either => either.resolve_left fun here => well here.2⟩
      · have fails : first.Fails now request documents :=
          Domain.exists_failed_iff.mp ⟨error, failure⟩
        refine ⟨first.name :: failed, ordered.cons_cons _, fun name => ?_, by rw [failure]; rfl⟩
        rw [failsOn_cons_iff passes, List.mem_cons, found]
        exact or_congr_left ⟨fun same => ⟨same.symm, fails⟩, fun here => here.1.symm⟩

namespace AccessState

section Counters

variable {τ : Type}

theorem record_append (before after : List Event) (state : AccessState δ τ) :
    (state.record before).record after = state.record (before ++ after) := by
  unfold record
  rw [List.foldl_append]

/-- How often an event is counted by failed attempts, each under its own name, and one event more.
-/
theorem count_record_attempts {failed : List String} (distinct : failed.Nodup) {verdict : Event}
    (other : ∀ name, verdict ≠ .attempt name false) (state : AccessState δ τ) :
    let tally := (state.record (failed.map (.attempt · false) ++ [verdict])).tally
    (∀ event, (∀ name, event ≠ .attempt name false) →
      tally.count event = state.tally.count event + if event = verdict then 1 else 0) ∧
    ∀ name, tally.count (.attempt name false) =
      state.tally.count (.attempt name false) + if name ∈ failed then 1 else 0 := by
  have injective : Function.Injective fun name => Event.attempt name false := by
    intro first second same
    cases same
    rfl
  have single : ∀ event : Event, [verdict].count event = if event = verdict then 1 else 0 := by
    intro event
    by_cases same : event = verdict
    · rw [if_pos same, same, List.count_singleton_self]
    · rw [if_neg same, List.count_eq_zero, List.mem_singleton]
      exact same
  refine ⟨fun event different => ?_, fun name => ?_⟩
  · have uncounted : (failed.map (Event.attempt · false)).count event = 0 := by
      refine List.count_eq_zero.mpr fun member => ?_
      obtain ⟨name, _, same⟩ := List.mem_map.mp member
      exact different name same.symm
    show Tally.count event (List.foldl _ _ _) = _
    rw [Tally.count_foldl_record, List.count_append, uncounted, single, Nat.zero_add]
  · show Tally.count _ (List.foldl _ _ _) = _
    rw [Tally.count_foldl_record, List.count_append, single, if_neg (other name).symm,
      Nat.add_zero, List.count_map_of_injective failed _ injective, distinct.count]

variable [SessionStore τ]

theorem tally_issue (moment : Moment) (identity : Identity) (state : AccessState δ τ) :
    (state.issue moment identity).2.tally = state.tally := by
  unfold issue
  split <;> rfl

theorem tally_resume (moment : Moment) (request : Request) (state : AccessState δ τ) :
    (state.resume moment request).2.tally = state.tally := by
  unfold resume
  split <;> rfl

/-- With what the walk counts for a decision, its outcome counts one event, the one that it stands
for. -/
theorem tally_conclude (moment : Moment) (anonymous : Bool) (state : AccessState δ τ)
    (events : List Event) (decision : Decision) :
    let concluded := conclude moment anonymous
      (state.record (events ++ decision.event?.toList)) decision
    ∃ verdict, concluded.1.event? = some verdict ∧ (∀ name, verdict ≠ .attempt name false) ∧
      verdict ≠ .sessionHit ∧ concluded.2.tally = (state.record (events ++ [verdict])).tally := by
  cases decision with
  | accepted domain identity =>
    refine ⟨.attempt domain true, rfl, by simp, by simp, ?_⟩
    exact tally_issue moment identity _
  | asked domain challenge => exact ⟨.challenge domain, rfl, by simp, by simp, rfl⟩
  | exhausted =>
    cases anonymous with
    | true =>
      refine ⟨.anonymousGrant, rfl, by simp, by simp, ?_⟩
      show ((state.record (events ++ [])).record [.anonymousGrant]).tally = _
      rw [record_append, List.append_nil]
    | false =>
      refine ⟨.rejection, rfl, by simp, by simp, ?_⟩
      show ((state.record (events ++ [])).record [.rejection]).tally = _
      rw [record_append, List.append_nil]

/-- Trying a chain counts the failed attempts of its walk and the event of its outcome. -/
theorem tally_tryChain (moment : Moment) (request : Request) (chain : Chain δ)
    (state : AccessState δ τ) :
    let tried := state.tryChain moment request chain
    ∃ (failed : List String) (verdict : Event), failed.Sublist chain.names ∧
      (∀ name, name ∈ failed ↔
        FailsOn moment.now request chain.domains state.documents name) ∧
      tried.1.event? = some verdict ∧ (∀ name, verdict ≠ .attempt name false) ∧
      verdict ≠ .sessionHit ∧
      tried.2.tally = (state.record (failed.map (.attempt · false) ++ [verdict])).tally := by
  intro tried
  obtain ⟨failed, ordered, found, events⟩ :=
    events_walk moment.now request chain.domains state.documents
  let walked := Decision.walk moment.now request chain.domains state.documents
  have unfolded : tried = conclude moment chain.anonymous
      (({ state with documents := walked.2.2 } : AccessState δ τ).record
        (failed.map (.attempt · false) ++ walked.1.event?.toList)) walked.1 := by
    rw [← events]
    rfl
  obtain ⟨verdict, stands, other, unresumed, tally⟩ := tally_conclude moment chain.anonymous
    ({ state with documents := walked.2.2 } : AccessState δ τ) (failed.map (.attempt · false))
    walked.1
  rw [← unfolded] at stands tally
  exact ⟨failed, verdict, ordered, found, stands, other, unresumed, tally⟩

end Counters

end AccessState

/-! ### Sessions -/

namespace MemorySessions

/-- A store without the session that a request presents, if its time is over. -/
def settled (moment : Moment) (request : Request) (store : MemorySessions) : MemorySessions :=
  store.filter fun entry =>
    !(AccessState.presented? request = some entry.session && !entry.isLive moment.now)

theorem eq_of_entries {first second : MemorySessions} (lifetime : first.lifetime = second.lifetime)
    (entries : first.entries = second.entries) : first = second := by
  cases first
  cases second
  cases lifetime
  cases entries
  rfl

theorem settled_of_presented {moment : Moment} {request : Request} {session : Session}
    (presents : AccessState.presented? request = some session) (store : MemorySessions) :
    store.settled moment request = (store.resolve moment session).2 := by
  refine eq_of_entries ?_ ?_
  · exact (lifetime_perform store ⟨moment, .resolve session⟩).symm
  · rw [entries_resolve]
    refine List.filter_congr fun entry _ => ?_
    simp [presents]

theorem settled_of_not_presented {moment : Moment} {request : Request}
    (presents : AccessState.presented? request = none) (store : MemorySessions) :
    store.settled moment request = store := by
  refine eq_of_entries rfl (List.filter_eq_self.mpr fun entry _ => ?_)
  simp [presents]

/-- With a token that no session has, issuing adds one entry. -/
theorem entries_issue {moment : Moment} {identity : Identity} {store : MemorySessions}
    (fresh : ∀ entry ∈ store.entries, entry.session.token ≠ moment.token) :
    (store.issue moment identity).2.entries =
      ⟨(store.issue moment identity).1, identity, moment.now + store.lifetime⟩ ::
        store.entries := by
  let use : SessionUse := ⟨moment, .issue identity⟩
  have untaken : ∀ entry ∈ store.entries, some entry.session.token ≠ use.token? :=
    fun entry member same => fresh entry member (Option.some.inj same)
  have kept : (store.entries.filter fun entry => !use.ends entry) = store.entries :=
    List.filter_eq_self.mpr fun _ _ => rfl
  have performed := entries_perform untaken
  rw [kept] at performed
  exact performed

end MemorySessions

namespace AccessState

section Sessions

variable {moment : Moment} {request : Request} {state : AccessState δ MemorySessions}

theorem sessions_resume (moment : Moment) (request : Request)
    (state : AccessState δ MemorySessions) :
    (state.resume moment request).2.sessions =
      state.sessions.map (MemorySessions.settled moment request) := by
  unfold resume
  cases sessions : state.sessions with
  | none => exact sessions
  | some store =>
    cases presents : presented? request with
    | none =>
      show state.sessions = _
      rw [sessions, Option.map_some, MemorySessions.settled_of_not_presented presents]
    | some session =>
      rw [Option.map_some, MemorySessions.settled_of_presented presents]
      rfl

theorem sessions_conclude {moment : Moment} {anonymous : Bool}
    {state : AccessState δ MemorySessions} {decision : Decision} :
    let concluded := conclude moment anonymous state decision
    (∀ identity session name, concluded.1 = .authenticated identity session (some name) →
      session = state.sessions.map (fun store => (store.issue moment identity).1) ∧
      concluded.2.sessions = state.sessions.map fun store => (store.issue moment identity).2) ∧
    ((∀ identity session name, concluded.1 ≠ .authenticated identity session (some name)) →
      concluded.2.sessions = state.sessions) := by
  cases decision with
  | accepted domain caller =>
    refine ⟨fun identity session name named => ?_, fun unnamed => (unnamed _ _ _ rfl).elim⟩
    cases named
    show (state.issue moment caller).1 = _ ∧ (state.issue moment caller).2.sessions = _
    unfold issue
    cases sessions : state.sessions with
    | none => exact ⟨rfl, sessions⟩
    | some store => exact ⟨rfl, rfl⟩
  | asked domain challenge =>
    exact ⟨fun _ _ _ named => Outcome.noConfusion named, fun _ => rfl⟩
  | exhausted =>
    cases anonymous with
    | true => refine ⟨fun _ _ _ named => ?_, fun _ => rfl⟩; cases named
    | false => refine ⟨fun _ _ _ named => ?_, fun _ => rfl⟩; cases named

end Sessions

section Whole

variable {τ : Type} [SessionStore τ] {moment : Moment} {request : Request} {chain : Chain δ}
  {state : AccessState δ τ}

theorem authenticate_of_resumed {pair : Session × Identity}
    (resumed : (state.resume moment request).1 = some pair) :
    state.authenticate moment request (some chain) =
      (.authenticated pair.2 (some pair.1) none,
        (state.resume moment request).2.record [.sessionHit]) := by
  unfold authenticate
  cases found : state.resume moment request with
  | mk first left =>
    rw [found] at resumed
    obtain rfl : first = some pair := resumed
    rfl

theorem authenticate_eq_tryChain (fresh : (state.resume moment request).1 = none) :
    state.authenticate moment request (some chain) =
      (state.resume moment request).2.tryChain moment request chain := by
  unfold authenticate
  cases found : state.resume moment request with
  | mk first left =>
    rw [found] at fresh
    obtain rfl : first = none := fresh
    rfl

end Whole

/-- Names in the chain of any run of documents are distinct. -/
theorem nodup_names_of_rebuildAll {types : TypeTable δ} {documents : List Settings}
    {chain : Chain δ}
    (published : (Registry.rebuildAll documents (.ofTypes types)).2.published = some chain) :
    chain.names.Nodup := by
  rcases Registry.published_rebuildAll_iff.mp published with ⟨before, _⟩ | ⟨settings, _, built⟩
  · cases before
  · exact (Registry.describes_of_chainOf built).distinct

/-- **What one request counts.** The event of its outcome is counted once, and so is a failed
attempt for each domain that the walk finds to fail; nothing else is. -/
theorem tally_authenticate {chain : Chain δ} (distinct : chain.names.Nodup) {τ : Type}
    [SessionStore τ] (moment : Moment) (request : Request) (state : AccessState δ τ) :
    let reply := state.authenticate moment request (some chain)
    let failing (name : String) : Prop := (state.resume moment request).1 = none ∧
      FailsOn moment.now request chain.domains state.documents name
    (∃ verdict, reply.1.event? = some verdict ∧
      (verdict = .sessionHit ↔ (state.resume moment request).1 ≠ none) ∧
      ∀ event, (∀ name, event ≠ .attempt name false) → reply.2.tally.count event =
        state.tally.count event + if event = verdict then 1 else 0) ∧
    ∀ name, (failing name → reply.2.tally.count (.attempt name false) =
        state.tally.count (.attempt name false) + 1) ∧
      (¬ failing name → reply.2.tally.count (.attempt name false) =
        state.tally.count (.attempt name false)) := by
  intro reply failing
  have before := tally_resume moment request state
  cases resumed : (state.resume moment request).1 with
  | some pair =>
    have whole : reply = _ := authenticate_of_resumed resumed
    have tally : ∀ event, reply.2.tally.count event =
        state.tally.count event + if event = .sessionHit then 1 else 0 := by
      intro event
      rw [whole, ← before]
      exact Tally.count_record event .sessionHit _
    refine ⟨⟨.sessionHit, by rw [whole]; rfl, by simp, fun event _ => tally event⟩,
      fun name => ⟨fun fails => ?_, fun _ => tally _⟩⟩
    cases resumed.symm.trans fails.1
  | none =>
    have whole : reply = _ := authenticate_eq_tryChain resumed
    obtain ⟨failed, verdict, ordered, found, stands, other, unresumed, tally⟩ :=
      tally_tryChain moment request chain (state.resume moment request).2
    rw [← whole] at stands tally
    rw [documents_resume] at found
    obtain ⟨counted, attempts⟩ := count_record_attempts (distinct.sublist ordered) other
      (state.resume moment request).2
    rw [← tally, before] at counted attempts
    have failing_iff : ∀ name, failing name ↔ name ∈ failed := fun name =>
      ⟨fun fails => (found name).mpr fails.2, fun member => ⟨resumed, (found name).mp member⟩⟩
    refine ⟨⟨verdict, stands, iff_of_false unresumed (by simp), counted⟩, fun name => ?_⟩
    rw [attempts name, failing_iff]
    exact ⟨fun member => by rw [if_pos member], fun absent => by rw [if_neg absent, Nat.add_zero]⟩

/-- The presented session is settled first. Then a session is issued if a domain authenticates the
caller, and none otherwise. -/
theorem sessions_authenticate (chain : Chain δ) (moment : Moment) (request : Request)
    (state : AccessState δ MemorySessions) :
    let reply := state.authenticate moment request (some chain)
    let settled := state.sessions.map (MemorySessions.settled moment request)
    (∀ identity session name, reply.1 = .authenticated identity session (some name) →
      session = settled.map (fun store => (store.issue moment identity).1) ∧
      reply.2.sessions = settled.map fun store => (store.issue moment identity).2) ∧
    ((∀ identity session name, reply.1 ≠ .authenticated identity session (some name)) →
      reply.2.sessions = settled) := by
  intro reply settled
  have left : (state.resume moment request).2.sessions = settled :=
    sessions_resume moment request state
  cases resumed : (state.resume moment request).1 with
  | some pair =>
    have whole : reply = _ := authenticate_of_resumed resumed
    rw [whole]
    refine ⟨fun _ _ _ named => ?_, fun _ => left⟩
    cases named
  | none =>
    have whole : reply = _ := authenticate_eq_tryChain resumed
    rw [whole, ← left]
    exact sessions_conclude

theorem sessions_authenticate_eq_none {state : AccessState δ MemorySessions}
    (unused : state.sessions = none) (chain : Chain δ) (moment : Moment) (request : Request) :
    (state.authenticate moment request (some chain)).2.sessions = none := by
  obtain ⟨named, unnamed⟩ := sessions_authenticate chain moment request state
  rw [unused] at named unnamed
  by_cases authenticated : ∃ identity session name,
      (state.authenticate moment request (some chain)).1 =
        .authenticated identity session (some name)
  · obtain ⟨identity, session, name, here⟩ := authenticated
    exact (named identity session name here).2
  · exact unnamed fun identity session name here => authenticated ⟨identity, session, name, here⟩

/-- **What one request does to a store of sessions.** The presented session is gone if its time is
over. One session is added if a domain authenticates the caller, and none otherwise. -/
theorem store_authenticate {state : AccessState δ MemorySessions} {store : MemorySessions}
    (used : state.sessions = some store) (chain : Chain δ) (moment : Moment) (request : Request) :
    let reply := state.authenticate moment request (some chain)
    ∃ left, reply.2.sessions = some left ∧ left.lifetime = store.lifetime ∧
      (∀ identity session name, reply.1 = .authenticated identity session (some name) →
        (∀ entry ∈ store.entries, entry.session.token ≠ moment.token) →
        ∃ entry, session = some entry.session ∧ entry.identity = identity ∧
          left.entries = entry :: (store.settled moment request).entries) ∧
      ((∀ identity session name, reply.1 ≠ .authenticated identity session (some name)) →
        left = store.settled moment request) := by
  intro reply
  obtain ⟨named, unnamed⟩ := sessions_authenticate chain moment request state
  rw [used] at named unnamed
  by_cases authenticated : ∃ identity session name,
      reply.1 = .authenticated identity session (some name)
  · obtain ⟨identity, session, name, here⟩ := authenticated
    obtain ⟨returned, sessions⟩ := named identity session name here
    refine ⟨_, sessions, rfl, fun other given domain there fresh => ?_,
      fun nowhere => (nowhere _ _ _ here).elim⟩
    cases here.symm.trans there
    have untaken : ∀ entry ∈ (store.settled moment request).entries,
        entry.session.token ≠ moment.token := fun entry member =>
      fresh entry (List.mem_of_mem_filter member)
    exact ⟨⟨_, identity, _⟩, returned, rfl, MemorySessions.entries_issue untaken⟩
  · have nowhere : ∀ identity session name,
        reply.1 ≠ .authenticated identity session (some name) :=
      fun identity session name here => authenticated ⟨identity, session, name, here⟩
    exact ⟨_, unnamed nowhere, rfl, fun identity session name here =>
      (nowhere identity session name here).elim, fun _ => rfl⟩

/-- **All that one request changes.** Take the registry that any run of documents leaves.

Without a chain nothing changes. With one, the outcome stands for one event, which is a resumed
session exactly if a session is resumed, and of all counters but those of failed attempts only that
of this event grows, by one. A failed attempt is counted once for each domain that the walk reaches
and that fails, if no session is resumed, and for no other. A store of sessions loses the presented
session if its time is over. It gains the one of the outcome, and no other, if a domain
authenticates the caller; it gains none if not. -/
theorem tally_and_sessions_of_authenticate (types : TypeTable δ) (documents : List Settings) (moment : Moment)
    (request : Request) (state : AccessState δ MemorySessions) :
    let registry := (Registry.rebuildAll documents (.ofTypes types)).2
    let outcome := (state.authenticate moment request registry.published).1
    let after := (state.authenticate moment request registry.published).2
    let resumed := (state.resume moment request).1
    let failing (name : String) : Prop := resumed = none ∧
      FailsOn moment.now request registry.chain.domains state.documents name
    (registry.isInitialized = false → outcome = .unavailable ∧ after = state) ∧
    (registry.isInitialized = true →
      (∃ verdict, outcome.event? = some verdict ∧ (verdict = .sessionHit ↔ resumed ≠ none) ∧
        ∀ event, (∀ name, event ≠ .attempt name false) → after.tally.count event =
          state.tally.count event + if event = verdict then 1 else 0) ∧
      (∀ name, (failing name → after.tally.count (.attempt name false) =
          state.tally.count (.attempt name false) + 1) ∧
        (¬ failing name → after.tally.count (.attempt name false) =
          state.tally.count (.attempt name false))) ∧
      (state.sessions = none → after.sessions = none) ∧
      ∀ store, state.sessions = some store → ∃ left, after.sessions = some left ∧
        left.lifetime = store.lifetime ∧
        (∀ identity session name, outcome = .authenticated identity session (some name) →
          (∀ entry ∈ store.entries, entry.session.token ≠ moment.token) →
          ∃ entry, session = some entry.session ∧ entry.identity = identity ∧
            left.entries = entry :: (store.settled moment request).entries) ∧
        ((∀ identity session name, outcome ≠ .authenticated identity session (some name)) →
          left = store.settled moment request)) := by
  intro registry outcome after resumed failing
  refine ⟨fun uninitialized => ?_, fun initialized => ?_⟩
  · have unpublished : registry.published = none := by
      simpa [Registry.isInitialized] using uninitialized
    have replied : state.authenticate moment request registry.published =
        (.unavailable, state) := by
      rw [unpublished]
      rfl
    exact ⟨congrArg (·.1) replied, congrArg (·.2) replied⟩
  · obtain ⟨chain, published⟩ := Option.isSome_iff_exists.mp initialized
    have current : registry.chain = chain := by rw [Registry.chain, published]; rfl
    have distinct : chain.names.Nodup := nodup_names_of_rebuildAll published
    obtain ⟨counted, failures⟩ := tally_authenticate distinct moment request state
    have unused (absent : state.sessions = none) :=
      sessions_authenticate_eq_none absent chain moment request
    have used (store : MemorySessions) (present : state.sessions = some store) :=
      store_authenticate present chain moment request
    rw [← published] at counted failures unused used
    rw [← current] at failures
    exact ⟨counted, failures, unused, used⟩

end AccessState

end Gatehouse
