/-
**The sessions that are outstanding.**

A store of sessions in memory is used over time: sessions are issued, resolved, revoked and purged.
The list of these uses says by itself which sessions are outstanding: those that were issued and
that no later use has ended. The store keeps these and no others.

Time does not run backwards between uses, and every issue is given a token that no other one is
given.

* `SessionUse`, `MemorySessions.perform`: one use of a store, with the reply to it;
* `SessionUse.ends`: a use ends a session, because it revokes it or finds that its time is over;
* `outstanding`: the sessions that a list of uses leaves; `outstanding_append`;
* `entries_perform`, `entries_run`: what one use does to a store, and what all of them leave in it;
* `resolve_run_iff`, `resolve_run_eq_none`: which sessions resolve after a run, and which no more;
* **`size_and_resolve_and_purge_run`**: what resolving, the size and purging tell, in every run.
-/

import Gatehouse.Session.Store
import Mathlib.Data.List.Induction
import Mathlib.Data.List.Nodup

namespace Gatehouse

/-! ### Looking sessions up -/

namespace MemorySessions

theorem find?_eq_some_iff {sessions : MemorySessions} {session : Session} {entry : SessionEntry} :
    sessions.find? session = some entry ↔ entry ∈ sessions.entries ∧ entry.session = session := by
  unfold find?
  constructor
  · intro found
    exact ⟨List.mem_of_find?_eq_some found, by simpa using List.find?_some found⟩
  · rintro ⟨member, same⟩
    cases found : sessions.entries.find? fun other => other.session = session with
    | none =>
      have absent := List.find?_eq_none.mp found entry member
      simp [same] at absent
    | some other =>
      have otherSame : other.session = session := by simpa using List.find?_some found
      have equal := List.inj_on_of_nodup_map sessions.distinct member
        (List.mem_of_find?_eq_some found) (same.trans otherSame.symm)
      rw [equal]

theorem find?_filter (sessions : MemorySessions) (test : SessionEntry → Bool) (session : Session) :
    (sessions.filter test).find? session = (sessions.find? session).filter test := by
  refine Option.ext fun entry => ?_
  rw [find?_eq_some_iff, Option.filter_eq_some_iff, find?_eq_some_iff]
  show entry ∈ sessions.entries.filter test ∧ _ ↔ _
  rw [List.mem_filter]
  exact ⟨fun ⟨⟨member, passes⟩, same⟩ => ⟨⟨member, same⟩, passes⟩,
    fun ⟨⟨member, same⟩, passes⟩ => ⟨⟨member, passes⟩, same⟩⟩

theorem find?_erase (sessions : MemorySessions) (session other : Session) :
    (sessions.erase other).find? session =
      if session = other then none else sessions.find? session := by
  rw [erase, find?_filter]
  cases found : sessions.find? session with
  | none => simp
  | some entry =>
    have same := (find?_eq_some_iff.mp found).2
    by_cases erased : session = other <;> simp [same, erased]

theorem find?_insert (sessions : MemorySessions) (session : Session) (entry : SessionEntry) :
    (sessions.insert entry).find? session =
      if session = entry.session then some entry else sessions.find? session := by
  have erased := sessions.find?_erase session entry.session
  show (entry :: (sessions.erase entry.session).entries).find? _ = _
  by_cases same : session = entry.session
  · simp [same]
  · rw [if_neg same] at erased ⊢
    rw [List.find?_cons_of_neg (by simpa using Ne.symm same)]
    exact erased

end MemorySessions

/-! ### Uses of a store -/

/-- What a store can be asked. -/
inductive SessionCall where
  | issue (identity : Identity)
  | resolve (session : Session)
  | revoke (session : Session)
  | purge
deriving DecidableEq

/-- A call at its moment. -/
structure SessionUse where
  moment : Moment
  call : SessionCall

/-- What a store replies. -/
inductive SessionReply where
  | issued (session : Session)
  | resolved (identity : Option Identity)
  | revoked
  | purged (number : Nat)
deriving DecidableEq

namespace SessionUse

/-- The entry that a use makes in a store whose sessions live for a given time. -/
def made? (lifetime : Nat) (use : SessionUse) : Option SessionEntry :=
  match use.call with
  | .issue identity =>
    some ⟨⟨identity.username, use.moment.token⟩, identity, use.moment.now + lifetime⟩
  | .resolve _ | .revoke _ | .purge => none

/-- The token that a use takes. -/
def token? (use : SessionUse) : Option Token :=
  match use.call with
  | .issue _ => some use.moment.token
  | .resolve _ | .revoke _ | .purge => none

/-- Whether a use ends the session of an entry: it revokes the session, or it comes upon it when its
time is over. -/
def ends (entry : SessionEntry) (use : SessionUse) : Bool :=
  match use.call with
  | .issue _ => false
  | .resolve session => session = entry.session && !entry.isLive use.moment.now
  | .revoke session => session = entry.session
  | .purge => !entry.isLive use.moment.now

/-- A use with its reply shows that a session is there: it issues the session or resolves it. -/
def Shows (session : Session) (use : SessionUse) (reply : SessionReply) : Prop :=
  reply = .issued session ∨
    use.call = .resolve session ∧ ∃ identity, reply = .resolved (some identity)

theorem made?_eq_some_iff {lifetime : Nat} {use : SessionUse} {entry : SessionEntry} :
    use.made? lifetime = some entry ↔ use.call = .issue entry.identity ∧
      entry.session = ⟨entry.identity.username, use.moment.token⟩ ∧
      entry.expires = use.moment.now + lifetime := by
  obtain ⟨moment, call⟩ := use
  obtain ⟨session, identity, expires⟩ := entry
  cases call with
  | issue other =>
    simp only [made?, Option.some.injEq, SessionEntry.mk.injEq, SessionCall.issue.injEq]
    constructor
    · rintro ⟨rfl, rfl, rfl⟩; exact ⟨rfl, rfl, rfl⟩
    · rintro ⟨rfl, rfl, rfl⟩; exact ⟨rfl, rfl, rfl⟩
  | resolve _ | revoke _ | purge => simp [made?]

/-- While its time is not over, only revoking it ends a session. -/
theorem ends_eq_false_iff {use : SessionUse} {entry : SessionEntry}
    (live : entry.isLive use.moment.now = true) :
    use.ends entry = false ↔ use.call ≠ .revoke entry.session := by
  obtain ⟨moment, call⟩ := use
  cases call with
  | issue _ | resolve _ | purge => simp [ends, live]
  | revoke session => simp [ends]

end SessionUse

theorem SessionEntry.isLive_of_le {entry : SessionEntry} {earlier later : Nat}
    (live : entry.isLive later = true) (order : earlier ≤ later) : entry.isLive earlier = true := by
  simp only [isLive, decide_eq_true_eq] at live ⊢
  omega

/-- The entries that uses have made and no later use has ended, in the order in which they were
made. -/
def outstanding (lifetime : Nat) : List SessionUse → List SessionEntry
  | [] => []
  | use :: later =>
    (use.made? lifetime).toList.filter (fun entry => !later.any (SessionUse.ends entry)) ++
      outstanding lifetime later

/-- Uses in their order in time, where no two take the same token. -/
structure Orderly (uses : List SessionUse) : Prop where
  clock : uses.Pairwise fun earlier later => earlier.moment.now ≤ later.moment.now
  fresh : (uses.filterMap SessionUse.token?).Nodup

namespace MemorySessions

/-- Use a store. -/
def perform (sessions : MemorySessions) (use : SessionUse) : SessionReply × MemorySessions :=
  match use.call with
  | .issue identity =>
    let (session, sessions) := sessions.issue use.moment identity
    (.issued session, sessions)
  | .resolve session =>
    let (identity, sessions) := sessions.resolve use.moment session
    (.resolved identity, sessions)
  | .revoke session => (.revoked, sessions.erase session)
  | .purge =>
    let (number, sessions) := sessions.purge use.moment.now
    (.purged number, sessions)

theorem reply_of_issue {sessions : MemorySessions} {use : SessionUse} {identity : Identity}
    (call : use.call = .issue identity) :
    (sessions.perform use).1 = .issued ⟨identity.username, use.moment.token⟩ := by
  unfold perform
  rw [call]
  rfl

theorem reply_of_resolve {sessions : MemorySessions} {use : SessionUse} {session : Session}
    (call : use.call = .resolve session) :
    (sessions.perform use).1 = .resolved (sessions.resolve use.moment session).1 := by
  unfold perform
  rw [call]

/-- The store after uses one after another. -/
def run (sessions : MemorySessions) : List SessionUse → MemorySessions
  | [] => sessions
  | use :: later => run (sessions.perform use).2 later

/-! ### One use -/

section Step

variable {sessions : MemorySessions}

theorem lifetime_perform (sessions : MemorySessions) (use : SessionUse) :
    (sessions.perform use).2.lifetime = sessions.lifetime := by
  obtain ⟨moment, call⟩ := use
  cases call with
  | issue identity => rfl
  | resolve session =>
    show (sessions.resolve moment session).2.lifetime = _
    unfold resolve
    split
    · rfl
    · split <;> rfl
  | revoke session => rfl
  | purge => rfl

theorem entries_resolve (moment : Moment) (session : Session) (sessions : MemorySessions) :
    (sessions.resolve moment session).2.entries = sessions.entries.filter fun entry =>
      !(session = entry.session && !entry.isLive moment.now) := by
  unfold resolve
  split
  · next absent =>
    -- no entry is of the session
    refine (List.filter_eq_self.mpr fun entry member => ?_).symm
    have different : session ≠ entry.session := by
      rintro rfl
      rw [find?_eq_some_iff.mpr ⟨member, rfl⟩] at absent
      cases absent
    simp [different]
  · next found hit =>
    -- the one entry of the session is the one that was found
    have only : ∀ entry ∈ sessions.entries, session = entry.session → entry = found := by
      rintro entry member rfl
      exact Option.some.inj ((find?_eq_some_iff.mpr ⟨member, rfl⟩).symm.trans hit)
    split
    · next live =>
      refine (List.filter_eq_self.mpr fun entry member => ?_).symm
      by_cases same : session = entry.session
      · simp [only entry member same, live]
      · simp [same]
    · next finished =>
      refine List.filter_congr fun entry member => ?_
      by_cases same : session = entry.session
      · have ended : entry.isLive moment.now = false := by
          simpa [only entry member same] using finished
        simp [← same, ended]
      · simp [same, Ne.symm same]

/-- A use drops the entries that it ends and makes its own. -/
theorem entries_perform {use : SessionUse}
    (fresh : ∀ entry ∈ sessions.entries, some entry.session.token ≠ use.token?) :
    (sessions.perform use).2.entries = (use.made? sessions.lifetime).toList ++
      sessions.entries.filter fun entry => !use.ends entry := by
  obtain ⟨moment, call⟩ := use
  cases call with
  | issue identity =>
    have kept : (sessions.erase ⟨identity.username, moment.token⟩).entries = sessions.entries := by
      refine List.filter_eq_self.mpr fun entry member => ?_
      have different : entry.session ≠ ⟨identity.username, moment.token⟩ := fun same =>
        fresh entry member (by rw [same]; rfl)
      simpa using different
    have all : (sessions.entries.filter fun _ => !false) = sessions.entries :=
      List.filter_eq_self.mpr fun _ _ => rfl
    show _ :: (sessions.erase ⟨identity.username, moment.token⟩).entries =
      _ :: sessions.entries.filter fun _ => !false
    rw [kept, all]
  | resolve session => exact entries_resolve moment session sessions
  | revoke session =>
    refine List.filter_congr fun entry _ => ?_
    simp [SessionUse.ends, eq_comm]
  | purge =>
    refine List.filter_congr fun entry _ => ?_
    simp [SessionUse.ends]

end Step

end MemorySessions

/-! ### Outstanding sessions -/

section Outstanding

variable {lifetime : Nat}

/-- What later uses leave of the entries before them, and what they add. -/
theorem outstanding_append (past later : List SessionUse) :
    outstanding lifetime (past ++ later) =
      (outstanding lifetime past).filter (fun entry => !later.any (SessionUse.ends entry)) ++
        outstanding lifetime later := by
  induction past with
  | nil => rfl
  | cons use past ih =>
    have both : (fun entry => !(past ++ later).any (SessionUse.ends entry)) = fun entry =>
        !later.any (SessionUse.ends entry) && !past.any (SessionUse.ends entry) := by
      funext entry
      rw [List.any_append, Bool.not_or, Bool.and_comm]
    rw [List.cons_append, outstanding, outstanding, both, ih, List.filter_append,
      List.filter_filter, List.append_assoc]

/-- An entry is outstanding if some use made it and no later one has ended it. -/
theorem mem_outstanding_iff {uses : List SessionUse} {entry : SessionEntry} :
    entry ∈ outstanding lifetime uses ↔ ∃ before use after, uses = before ++ use :: after ∧
      use.made? lifetime = some entry ∧ ∀ later ∈ after, later.ends entry = false := by
  induction uses with
  | nil => simp [outstanding]
  | cons use uses ih =>
    rw [outstanding, List.mem_append, ih]
    constructor
    · rintro (here | ⟨before, made, after, rfl, makes, kept⟩)
      · obtain ⟨makes, kept⟩ := List.mem_filter.mp here
        exact ⟨[], use, uses, rfl, Option.mem_toList.mp makes, by simpa using kept⟩
      · exact ⟨use :: before, made, after, rfl, makes, kept⟩
    · rintro ⟨before, made, after, split, makes, kept⟩
      cases before with
      | nil =>
        cases split
        exact .inl (List.mem_filter.mpr ⟨Option.mem_toList.mpr makes, by simpa using kept⟩)
      | cons first before =>
        cases split
        exact .inr ⟨before, made, after, rfl, makes, kept⟩

theorem token_mem_of_outstanding {uses : List SessionUse} {entry : SessionEntry}
    (member : entry ∈ outstanding lifetime uses) :
    entry.session.token ∈ uses.filterMap SessionUse.token? := by
  obtain ⟨before, ⟨moment, call⟩, after, rfl, makes, _⟩ := mem_outstanding_iff.mp member
  refine List.mem_filterMap.mpr ⟨⟨moment, call⟩, by simp, ?_⟩
  cases call with
  | issue identity => cases makes; rfl
  | resolve _ | revoke _ | purge => cases makes

end Outstanding

/-! ### Runs -/

theorem Orderly.before {past later : List SessionUse} (orderly : Orderly (past ++ later)) :
    Orderly past where
  clock := (List.pairwise_append.mp orderly.clock).1
  fresh := by
    have fresh := orderly.fresh
    rw [List.filterMap_append] at fresh
    exact (List.nodup_append.mp fresh).1

/-- A token that an entry before has is not taken again. -/
theorem Orderly.untaken {past later : List SessionUse} (orderly : Orderly (past ++ later))
    {lifetime : Nat} {entry : SessionEntry} (member : entry ∈ outstanding lifetime past) :
    entry.session.token ∉ later.filterMap SessionUse.token? := by
  have fresh := orderly.fresh
  rw [List.filterMap_append] at fresh
  exact fun again =>
    (List.nodup_append.mp fresh).2.2 _ (token_mem_of_outstanding member) _ again rfl

theorem Orderly.clock_le {past later : List SessionUse} (orderly : Orderly (past ++ later))
    {earlier use : SessionUse} (before : earlier ∈ past) (after : use ∈ later) :
    earlier.moment.now ≤ use.moment.now :=
  (List.pairwise_append.mp orderly.clock).2.2 earlier before use after

namespace MemorySessions

theorem run_append (sessions : MemorySessions) (past later : List SessionUse) :
    sessions.run (past ++ later) = (sessions.run past).run later := by
  induction past generalizing sessions with
  | nil => rfl
  | cons use past ih => exact ih (sessions.perform use).2

theorem lifetime_run (sessions : MemorySessions) (uses : List SessionUse) :
    (sessions.run uses).lifetime = sessions.lifetime := by
  induction uses generalizing sessions with
  | nil => rfl
  | cons use uses ih =>
    show (run (sessions.perform use).2 uses).lifetime = _
    rw [ih, lifetime_perform]

/-- **A store keeps what is outstanding**, the last entry first. -/
theorem entries_run (lifetime : Nat) {uses : List SessionUse} (orderly : Orderly uses) :
    ((withLifetime lifetime).run uses).entries = (outstanding lifetime uses).reverse := by
  induction uses using List.reverseRecOn with
  | nil => rfl
  | append_singleton uses use ih =>
    have kept := ih orderly.before
    have fresh : ∀ entry ∈ ((withLifetime lifetime).run uses).entries,
        some entry.session.token ≠ use.token? := by
      intro entry member taken
      rw [kept, List.mem_reverse] at member
      refine orderly.untaken member (List.mem_filterMap.mpr ⟨use, List.mem_singleton_self use, ?_⟩)
      exact taken.symm
    have alone : outstanding lifetime [use] = (use.made? lifetime).toList := by
      simp [outstanding]
    rw [run_append, run, run, entries_perform fresh, kept, lifetime_run, outstanding_append, alone,
      List.reverse_append, List.filter_reverse]
    show (use.made? lifetime).toList ++ _ = _
    cases use.made? lifetime <;> simp

/-- A session resolves exactly if it is outstanding and its time is not over. -/
theorem resolve_run_iff (lifetime : Nat) {past : List SessionUse} (orderly : Orderly past)
    {moment : Moment} {session : Session} {identity : Identity} :
    (((withLifetime lifetime).run past).resolve moment session).1 = some identity ↔
      ∃ entry ∈ outstanding lifetime past, entry.session = session ∧ entry.identity = identity ∧
        entry.isLive moment.now = true := by
  have kept : ∀ entry, ((withLifetime lifetime).run past).find? session = some entry ↔
      entry ∈ outstanding lifetime past ∧ entry.session = session := by
    intro entry
    rw [find?_eq_some_iff, entries_run lifetime orderly, List.mem_reverse]
  unfold resolve
  cases found : ((withLifetime lifetime).run past).find? session with
  | none =>
    constructor
    · intro impossible; cases impossible
    · rintro ⟨entry, member, same, _⟩
      cases found.symm.trans ((kept entry).mpr ⟨member, same⟩)
  | some entry =>
    obtain ⟨member, same⟩ := (kept entry).mp found
    cases live : entry.isLive moment.now with
    | true =>
      simp only [live, if_true, Option.some.injEq]
      constructor
      · intro named
        exact ⟨entry, member, same, named, live⟩
      · rintro ⟨other, member', same', named, _⟩
        cases found.symm.trans ((kept other).mpr ⟨member', same'⟩)
        exact named
    | false =>
      simp only [live, Bool.false_eq_true, if_false, reduceCtorEq, false_iff]
      rintro ⟨other, member', same', _, living⟩
      cases found.symm.trans ((kept other).mpr ⟨member', same'⟩)
      cases live.symm.trans living

/-- A session resolves exactly if an issue returned it that was not revoked since and whose time is
not over. -/
theorem resolve_run_iff_issued (lifetime : Nat) {past : List SessionUse} {use : SessionUse}
    (orderly : Orderly (past ++ [use])) {session : Session} {identity : Identity} :
    (((withLifetime lifetime).run past).resolve use.moment session).1 = some identity ↔
      ∃ before issue after, past = before ++ issue :: after ∧ issue.call = .issue identity ∧
        (((withLifetime lifetime).run before).perform issue).1 = .issued session ∧
        (∀ other ∈ after, other.call ≠ .revoke session) ∧
        use.moment.now < issue.moment.now + lifetime := by
  have early : ∀ other ∈ past, other.moment.now ≤ use.moment.now := fun other member =>
    orderly.clock_le member (List.mem_singleton_self use)
  rw [resolve_run_iff lifetime orderly.before]
  constructor
  · rintro ⟨entry, member, rfl, rfl, live⟩
    obtain ⟨before, issue, after, rfl, makes, kept⟩ := mem_outstanding_iff.mp member
    obtain ⟨call, session, expires⟩ := SessionUse.made?_eq_some_iff.mp makes
    refine ⟨before, issue, after, rfl, call, ?_, fun other later => ?_, ?_⟩
    · rw [reply_of_issue call, session]
    · have inside : other ∈ before ++ issue :: after := by simp [later]
      exact (SessionUse.ends_eq_false_iff (SessionEntry.isLive_of_le live (early other inside))).mp
        (kept other later)
    · rw [← expires]
      simpa [SessionEntry.isLive] using live
  · rintro ⟨before, issue, after, rfl, call, returned, kept, live⟩
    have session_eq : session = ⟨identity.username, issue.moment.token⟩ :=
      (SessionReply.issued.inj ((reply_of_issue call).symm.trans returned)).symm
    have living : SessionEntry.isLive use.moment.now
        ⟨session, identity, issue.moment.now + lifetime⟩ = true := by
      simpa [SessionEntry.isLive] using live
    refine ⟨_, mem_outstanding_iff.mpr ⟨before, issue, after, rfl,
      SessionUse.made?_eq_some_iff.mpr ⟨call, session_eq, rfl⟩, fun other later => ?_⟩, rfl, rfl,
      living⟩
    have inside : other ∈ before ++ issue :: after := by simp [later]
    exact (SessionUse.ends_eq_false_iff (SessionEntry.isLive_of_le living (early other inside))).mpr
      (kept other later)

/-- The token of a session that is there has been taken. -/
theorem token_mem_of_shows {lifetime : Nat} {past : List SessionUse} {use : SessionUse}
    {session : Session} (orderly : Orderly past)
    (shown : use.Shows session (((withLifetime lifetime).run past).perform use).1) :
    session.token ∈ (past ++ [use]).filterMap SessionUse.token? := by
  rw [List.filterMap_append, List.mem_append]
  rcases shown with issued | ⟨call, identity, resolved⟩
  · right
    obtain ⟨moment, call⟩ := use
    cases call with
    | issue identity => cases issued; exact List.mem_singleton_self _
    | resolve _ | revoke _ | purge => cases issued
  · left
    rw [reply_of_resolve call] at resolved
    obtain ⟨entry, member, rfl, _⟩ :=
      (resolve_run_iff lifetime orderly).mp (SessionReply.resolved.inj resolved)
    exact token_mem_of_outstanding member

/-- A session that was there and then did not resolve has gone for good. -/
theorem resolve_run_eq_none {lifetime : Nat} {early middle late : List SessionUse}
    {shown missed use : SessionUse} {session : Session}
    (orderly : Orderly (early ++ shown :: middle ++ missed :: late ++ [use]))
    (there : shown.Shows session (((withLifetime lifetime).run early).perform shown).1)
    (gone : (((withLifetime lifetime).run (early ++ shown :: middle)).resolve missed.moment
      session).1 = none) :
    (((withLifetime lifetime).run (early ++ shown :: middle ++ missed :: late)).resolve
      use.moment session).1 = none := by
  have order : missed.moment.now ≤ use.moment.now :=
    orderly.clock_le (by simp) (List.mem_singleton_self use)
  have until_use := orderly.before
  have until_missed := until_use.before
  have taken : session.token ∈ (early ++ shown :: middle).filterMap SessionUse.token? := by
    have shown_token := token_mem_of_shows until_missed.before there
    rw [List.append_cons, List.filterMap_append]
    exact List.mem_append_left _ shown_token
  rw [Option.eq_none_iff_forall_ne_some]
  intro identity resolves
  obtain ⟨entry, member, rfl, named, live⟩ := (resolve_run_iff lifetime until_use).mp resolves
  rw [outstanding_append, List.mem_append] at member
  rcases member with before | after
  · -- then it would have resolved already at the earlier time
    have still := (resolve_run_iff lifetime until_missed).mpr ⟨entry, List.mem_of_mem_filter before,
      rfl, named, SessionEntry.isLive_of_le live order⟩
    cases gone.symm.trans still
  · -- then its token would have been taken twice
    have fresh := until_use.fresh
    rw [List.filterMap_append] at fresh
    exact (List.nodup_append.mp fresh).2.2 _ taken _ (token_mem_of_outstanding after) rfl

/-- **What a store of sessions tells after any run.** The next use finds as many sessions as are
outstanding, and

* a session resolves, to the identity that it was issued to, exactly if an issue returned it that
  was not revoked since and whose time is not over; a session that was there and did not resolve
  once never resolves again;
* a purge removes exactly the entries whose time is over, and says how many they are. -/
theorem size_and_resolve_and_purge_run (lifetime : Nat) {past : List SessionUse} {use : SessionUse}
    (orderly : Orderly (past ++ [use])) :
    let start := withLifetime lifetime
    let reply := ((start.run past).perform use).1
    (start.run past).size = (outstanding lifetime past).length ∧
    (∀ session, use.call = .resolve session →
      (∀ identity, reply = .resolved (some identity) ↔
        ∃ before issue after, past = before ++ issue :: after ∧ issue.call = .issue identity ∧
          ((start.run before).perform issue).1 = .issued session ∧
          (∀ other ∈ after, other.call ≠ .revoke session) ∧
          use.moment.now < issue.moment.now + lifetime) ∧
      ∀ early shown middle missed late, past = early ++ shown :: middle ++ missed :: late →
        shown.Shows session ((start.run early).perform shown).1 →
        missed.call = .resolve session →
        ((start.run (early ++ shown :: middle)).perform missed).1 = .resolved none →
        reply = .resolved none) ∧
    (use.call = .purge →
      let left := start.run (past ++ [use])
      (∃ number, reply = .purged number ∧ number + left.size = (start.run past).size) ∧
      ∀ entry, entry ∈ left.entries ↔
        entry ∈ (start.run past).entries ∧ use.moment.now < entry.expires) := by
  intro start reply
  refine ⟨?_, fun session call => ⟨fun identity => ?_, ?_⟩, fun call => ?_⟩
  · rw [size, entries_run lifetime orderly.before, List.length_reverse]
  · rw [← resolve_run_iff_issued lifetime orderly]
    show reply = _ ↔ _
    rw [show reply = _ from reply_of_resolve call, SessionReply.resolved.injEq]
  · rintro early shown middle missed late rfl there missing lost
    rw [reply_of_resolve missing, SessionReply.resolved.injEq] at lost
    rw [show reply = _ from reply_of_resolve call, resolve_run_eq_none orderly there lost]
  · have purged : (start.run past).perform use =
        (.purged ((start.run past).purge use.moment.now).1,
          ((start.run past).purge use.moment.now).2) := by
      unfold perform
      rw [call]
    have left : start.run (past ++ [use]) = ((start.run past).purge use.moment.now).2 := by
      rw [run_append, run, run, purged]
    rw [left]
    refine ⟨⟨_, congrArg (·.1) purged, purge_add_size use.moment.now (start.run past)⟩,
      fun entry => ?_⟩
    show entry ∈ List.filter _ _ ↔ _
    rw [List.mem_filter, SessionEntry.isLive, decide_eq_true_eq]

/-- A moment whose token is made of one byte. -/
def momentAt (now byte : Nat) : Moment :=
  ⟨now, .ofRandom (List.replicate 16 (UInt8.ofNat byte))⟩

/-- Two sessions of one user, of which the first is revoked. -/
def twoVisits : List SessionUse :=
  let kirk := Identity.ofRoles "kirk" ["captain"]
  [⟨momentAt 0 1, .issue kirk⟩, ⟨momentAt 20 2, .issue kirk⟩,
    ⟨momentAt 50 0, .revoke ⟨"kirk", (momentAt 0 1).token⟩⟩]

/-- The other one resolves until its time is over. -/
theorem sessions_of_twoVisits :
    let use : SessionUse := ⟨momentAt 79 0, .resolve ⟨"kirk", (momentAt 20 2).token⟩⟩
    Orderly (twoVisits ++ [use]) ∧ ((withLifetime 60).run twoVisits).size = 1 ∧
    (((withLifetime 60).run twoVisits).perform use).1 =
      .resolved (some (.ofRoles "kirk" ["captain"])) := by
  intro use
  have orderly : Orderly (twoVisits ++ [use]) := ⟨by decide, by decide⟩
  obtain ⟨size, resolves, _⟩ := size_and_resolve_and_purge_run 60 orderly
  refine ⟨orderly, size.trans (by decide), ((resolves _ rfl).1 _).mpr ?_⟩
  refine ⟨[twoVisits[0]], twoVisits[1], [twoVisits[2]], rfl, rfl, rfl, ?_, by decide⟩
  intro other member
  rw [List.mem_singleton.mp member]
  decide

end MemorySessions

end Gatehouse
