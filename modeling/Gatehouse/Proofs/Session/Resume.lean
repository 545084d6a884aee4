/-
**Sessions that are presented again.**

A request that is authenticated with a session leaves an entry of it in the store. As long as no use
of the store revokes the session and its time is not over, the entry stays, and a later request that
presents the session is authenticated by it alone: no domain is tried, whatever chain is published
then.

The header value has to give the session again, though. It does exactly if the user name begins with
a character that is not blank. A user with another name is authenticated and gets a session, which
no request can present.

* `SessionUse.Spares`: uses of a store that let a session be; `find?_run`: they leave its entry;
* `resume_eq_some_iff`: when a session is resumed;
* `entry_of_authenticated`: the entry that an authenticated request leaves;
* **`authenticate_again`**: the replies to requests that present its session;
* `blank_name_not_resumed`: a user whose session cannot be presented.
-/

import Gatehouse.Proofs.Chain.Effects
import Gatehouse.Proofs.Session.Header

namespace Gatehouse

/-- Uses of a store, up to some time, that neither revoke a session nor take its token again. -/
structure SessionUse.Spares (session : Session) (now : Nat) (uses : List SessionUse) : Prop where
  unrevoked : ∀ use ∈ uses, use.call ≠ .revoke session
  untaken : ∀ use ∈ uses, use.token? ≠ some session.token
  early : ∀ use ∈ uses, use.moment.now ≤ now

/-! ### Entries that stay -/

namespace MemorySessions

variable {sessions : MemorySessions} {entry : SessionEntry}

/-- A use that neither ends a session nor takes its token leaves its entry. -/
theorem find?_perform {use : SessionUse} (found : sessions.find? entry.session = some entry)
    (kept : use.ends entry = false) (untaken : use.token? ≠ some entry.session.token) :
    (sessions.perform use).2.find? entry.session = some entry := by
  obtain ⟨moment, call⟩ := use
  cases call with
  | issue identity =>
    have other : entry.session ≠ ⟨identity.username, moment.token⟩ := by
      intro same
      exact untaken (congrArg (fun session : Session => some session.token) same).symm
    show (sessions.insert _).find? entry.session = _
    rw [find?_insert, if_neg other, found]
  | resolve _ | revoke _ | purge =>
    obtain ⟨member, _⟩ := find?_eq_some_iff.mp found
    rw [find?_eq_some_iff, entries_perform fun _ _ => Option.some_ne_none _]
    exact ⟨List.mem_append_right _ (List.mem_filter.mpr ⟨member, by rw [kept]; rfl⟩), rfl⟩

theorem find?_run {uses : List SessionUse} {now : Nat}
    (found : sessions.find? entry.session = some entry)
    (spared : SessionUse.Spares entry.session now uses) (live : entry.isLive now = true) :
    (sessions.run uses).find? entry.session = some entry := by
  induction uses generalizing sessions with
  | nil => exact found
  | cons use uses ih =>
    have first : use ∈ use :: uses := List.mem_cons_self
    have living := SessionEntry.isLive_of_le live (spared.early use first)
    have kept := (SessionUse.ends_eq_false_iff living).mpr (spared.unrevoked use first)
    have later : SessionUse.Spares entry.session now uses := {
      unrevoked := fun other member => spared.unrevoked other (List.mem_cons_of_mem _ member)
      untaken := fun other member => spared.untaken other (List.mem_cons_of_mem _ member)
      early := fun other member => spared.early other (List.mem_cons_of_mem _ member) }
    exact ih (find?_perform found kept (spared.untaken use first)) later

theorem resolve_eq_some_iff {moment : Moment} {session : Session} {identity : Identity} :
    (sessions.resolve moment session).1 = some identity ↔
      ∃ entry, sessions.find? session = some entry ∧ entry.isLive moment.now = true ∧
        entry.identity = identity := by
  unfold resolve
  cases found : sessions.find? session with
  | none => simp
  | some entry => cases live : entry.isLive moment.now <;> simp [live]

/-- Resolving a session that lives leaves the store as it is. -/
theorem resolve_of_live {moment : Moment} {session : Session}
    (found : sessions.find? session = some entry) (live : entry.isLive moment.now = true) :
    sessions.resolve moment session = (some entry.identity, sessions) := by
  unfold resolve
  simp only [found, live, if_true]

end MemorySessions

/-! ### Resuming -/

namespace AccessState

variable {δ : Type} {moment : Moment} {request : Request} {state : AccessState δ MemorySessions}

theorem resume_of_live {store : MemorySessions} {session : Session} {entry : SessionEntry}
    (used : state.sessions = some store) (presents : presented? request = some session)
    (found : store.find? session = some entry) (live : entry.isLive moment.now = true) :
    state.resume moment request = (some (session, entry.identity), state) := by
  have resolved : SessionStore.resolve moment session store = (some entry.identity, store) :=
    MemorySessions.resolve_of_live found live
  obtain ⟨documents, sessions, tally⟩ := state
  obtain rfl : sessions = some store := used
  unfold resume
  simp only [presents, resolved, Option.map_some]

theorem resume_eq_some_iff {session : Session} {identity : Identity} :
    (state.resume moment request).1 = some (session, identity) ↔
      ∃ store entry, state.sessions = some store ∧ presented? request = some session ∧
        store.find? session = some entry ∧ entry.isLive moment.now = true ∧
        entry.identity = identity := by
  constructor
  · intro resumed
    unfold resume at resumed
    split at resumed
    · next store presented used presents =>
      obtain ⟨caller, resolved, same⟩ := Option.map_eq_some_iff.mp resumed
      cases same
      obtain ⟨entry, found, live, named⟩ := MemorySessions.resolve_eq_some_iff.mp resolved
      exact ⟨store, entry, used, presents, found, live, named⟩
    · cases resumed
  · rintro ⟨store, entry, used, presents, found, live, rfl⟩
    rw [resume_of_live used presents found live]

/-- Only a resumed session is in an outcome that names no domain. -/
theorem resume_of_unnamed {chain : Chain δ} {session : Session} {identity : Identity}
    (authenticated : (state.authenticate moment request (some chain)).1 =
      .authenticated identity (some session) none) :
    (state.resume moment request).1 = some (session, identity) := by
  cases resumed : (state.resume moment request).1 with
  | none =>
    obtain ⟨_, _, _, unissued⟩ := (authenticate_eq_unnamed_iff resumed).mp authenticated
    cases unissued
  | some pair =>
    rw [authenticate_of_resumed resumed] at authenticated
    cases authenticated
    rfl

/-- A request that is authenticated with a session leaves an entry of it: the one that it was
resumed from, or a new one if a domain is named. -/
theorem entry_of_authenticated {chain : Chain δ} {session : Session} {identity : Identity}
    {domain : Option String} (authenticated : (state.authenticate moment request (some chain)).1 =
      .authenticated identity (some session) domain) :
    ∃ store entry, (state.authenticate moment request (some chain)).2.sessions = some store ∧
      store.find? session = some entry ∧ entry.identity = identity ∧
      (domain = none → entry.isLive moment.now = true) ∧
      (domain ≠ none →
        session.username = identity.username ∧ entry.expires = moment.now + store.lifetime) := by
  cases domain with
  | none =>
    obtain ⟨store, entry, used, presents, found, live, named⟩ :=
      resume_eq_some_iff.mp (resume_of_unnamed authenticated)
    have resumed := resume_of_live used presents found live
    refine ⟨store, entry, ?_, found, named, fun _ => live, fun differ => (differ rfl).elim⟩
    rw [authenticate_of_resumed (congrArg (·.1) resumed), resumed]
    exact used
  | some name =>
    obtain ⟨returned, sessions⟩ := (sessions_authenticate chain moment request state).1 _ _ _
      authenticated
    cases settled : state.sessions.map (MemorySessions.settled moment request) with
    | none => rw [settled] at returned; cases returned
    | some store =>
      rw [settled] at returned sessions
      cases returned
      let entry : SessionEntry :=
        ⟨⟨identity.username, moment.token⟩, identity, moment.now + store.lifetime⟩
      refine ⟨_, entry, sessions, ?_, rfl, fun unnamed => (Option.some_ne_none name unnamed).elim,
        fun _ => ⟨rfl, rfl⟩⟩
      show (store.insert entry).find? entry.session = _
      rw [MemorySessions.find?_insert, if_pos rfl]

/-- The header of a request carries a session. -/
def Carries (request : Request) (session : Session) : Prop :=
  request.header? Session.headerName = some session.headerValue

theorem presented?_of_carries {session : Session} (carries : Carries request session) :
    presented? request = Session.ofHeader? session.headerValue := by
  unfold presented?
  rw [carries, Option.bind_some]

/-- **A session is accepted again.** Let a request be authenticated with a session. The store then
has an entry of the session with the caller; it is a new one if a domain is named, and lives
otherwise.

Suppose that the user name begins with a character that is not blank. Let the store be used in any
way that spares the session, and let a request carry the session while its time is not over, under
any chain. The same caller is then authenticated by the same session; no domain is named, and all
that changes is the count of resumed sessions.

Suppose that it does not. Then the session never authenticates a request. -/
theorem authenticate_again {chain : Chain δ} {session : Session} {identity : Identity}
    {domain : Option String} (authenticated : (state.authenticate moment request (some chain)).1 =
      .authenticated identity (some session) domain) :
    ∃ store entry, (state.authenticate moment request (some chain)).2.sessions = some store ∧
      store.find? session = some entry ∧ entry.identity = identity ∧
      (domain = none → entry.isLive moment.now = true) ∧
      (domain ≠ none →
        session.username = identity.username ∧ entry.expires = moment.now + store.lifetime) ∧
      (session.IsPresentable → ∀ (later : Moment) (following : Request) (uses : List SessionUse)
        (next : AccessState δ MemorySessions) (current : Chain δ),
        SessionUse.Spares session later.now uses → next.sessions = some (store.run uses) →
        later.now < entry.expires → Carries following session →
        next.authenticate later following (some current) =
          (.authenticated identity (some session) none, next.record [.sessionHit])) ∧
      (¬ session.IsPresentable → ∀ (later : Moment) (following : Request)
        (next : AccessState δ MemorySessions) (current : Chain δ) (caller : Identity),
        (next.authenticate later following (some current)).1 ≠
          .authenticated caller (some session) none) := by
  obtain ⟨store, entry, kept, found, rfl, resumed, minted⟩ := entry_of_authenticated authenticated
  obtain rfl := (MemorySessions.find?_eq_some_iff.mp found).2
  refine ⟨store, entry, kept, found, rfl, resumed, minted, ?_, ?_⟩
  · intro presentable later following uses next current spared used before carries
    have live : entry.isLive later.now = true := decide_eq_true before
    have still := MemorySessions.find?_run found spared live
    have presents := presented?_of_carries carries
    rw [Session.ofHeader?_headerValue presentable] at presents
    have resumed := resume_of_live used presents still live
    rw [authenticate_of_resumed (congrArg (·.1) resumed), resumed]
  · intro unpresentable later following next current caller again
    obtain ⟨_, _, _, presents, _⟩ := resume_eq_some_iff.mp (resume_of_unnamed again)
    obtain ⟨value, _, read⟩ := Option.bind_eq_some_iff.mp presents
    exact unpresentable (Session.isPresentable_of_ofHeader? read)

/-- A chain whose only domain asks for a name and a password, and believes every name. -/
def credulous : Chain Unit where
  domains := [⟨"desk", 0, true, Basic.extractor "hall", {
    typeName := "credulous"
    authenticate credentials documents := (.ok (.ofRoles credentials.username []), documents)
    knows _ documents := (.ok true, documents) }⟩]
  anonymous := false
  sorted := List.pairwise_singleton _ _

/-- The reply to a request with nothing but one header, under that chain. -/
def replyTo (header value : String) (moment : Moment) (state : AccessState Unit MemorySessions) :
    Outcome × AccessState Unit MemorySessions :=
  state.authenticate moment { Request.blank with headers := Table.empty.put header value }
    (some credulous)

/-- Sessions that live for a minute, and none yet. -/
def withoutVisits : AccessState Unit MemorySessions := ⟨(), some (.withLifetime 60), .empty⟩

theorem kirk_authenticated_again :
    let kirk : Session := ⟨"kirk", (MemorySessions.momentAt 0 1).token⟩
    let first := replyTo Basic.headerName (Basic.headerOf "kirk" "") (MemorySessions.momentAt 0 1)
      withoutVisits
    first.1 = .authenticated (.ofRoles "kirk" []) (some kirk) (some "desk") ∧
    (replyTo Session.headerName kirk.headerValue (MemorySessions.momentAt 59 2) first.2).1 =
      .authenticated (.ofRoles "kirk" []) (some kirk) none := by
  intro kirk first
  have authenticated : first.1 = .authenticated (.ofRoles "kirk" []) (some kirk) (some "desk") := by
    decide +kernel
  have lifetime : first.2.sessions.map (·.lifetime) = some 60 := by decide +kernel
  obtain ⟨store, entry, kept, _, _, _, minted, again, _⟩ := authenticate_again authenticated
  have kept_first : first.2.sessions = some store := kept
  have minute : store.lifetime = 60 := by
    rw [kept_first] at lifetime
    exact Option.some.inj lifetime
  have expires : entry.expires = 60 := by
    rw [(minted (Option.some_ne_none "desk")).2, minute]
    rfl
  have spared : SessionUse.Spares kirk (MemorySessions.momentAt 59 2).now [] := by
    constructor <;> exact fun use member => (List.not_mem_nil member).elim
  have carries : Carries { Request.blank with
      headers := Table.empty.put Session.headerName kirk.headerValue } kirk := by
    show _ = _
    decide +kernel
  have first_char : "kirk".toList.head? = some 'k' := by decide
  have presentable : kirk.IsPresentable := ⟨'k', first_char, by decide⟩
  have before : (MemorySessions.momentAt 59 2).now < entry.expires := by
    rw [expires]
    decide
  have reply := again presentable (MemorySessions.momentAt 59 2) _ [] first.2 credulous spared
    kept before carries
  exact ⟨authenticated, congrArg (·.1) reply⟩

/-- A user whose name begins with a blank gets a session too, but is asked to log in again. -/
theorem blank_name_not_resumed :
    let kirk : Session := ⟨" kirk", (MemorySessions.momentAt 0 1).token⟩
    let first := replyTo Basic.headerName (Basic.headerOf " kirk" "") (MemorySessions.momentAt 0 1)
      withoutVisits
    first.1 = .authenticated (.ofRoles " kirk" []) (some kirk) (some "desk") ∧
    ((first.2.sessions.bind (·.find? kirk)).map fun entry => (entry.identity, entry.expires)) =
      some (.ofRoles " kirk" [], 60) ∧
    (replyTo Session.headerName kirk.headerValue (MemorySessions.momentAt 59 2) first.2).1 =
      .challenged "desk" (.wwwAuthenticate "Basic realm=\"hall\"") := by
  decide +kernel

end AccessState

end Gatehouse
