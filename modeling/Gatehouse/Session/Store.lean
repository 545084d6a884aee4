/-
**Session stores.**

A store issues sessions to identities and resolves them again. What a step depends on besides the
store, the time and a token never used before, is given to it as a moment.

* `SessionStore`: what a store can be asked, over states of type `τ`;
* `MemorySessions`: a store that keeps every session for a fixed time;
* `MemorySessions.purge_add_size`: purging removes as many sessions as it reports.
-/

import Gatehouse.Access.Identity
import Gatehouse.Session.Basic

namespace Gatehouse

/-- The surroundings of a step: the time in seconds since 1970, and a fresh token. -/
structure Moment where
  now : Nat
  token : Token

/-- A store of sessions whose states are of type `τ`. -/
class SessionStore (τ : Type) where
  /-- Issue a session to an identity. -/
  issue : Moment → Identity → τ → Session × τ
  /-- The identity behind a session, while it lives. -/
  resolve : Moment → Session → τ → Option Identity × τ
  /-- End a session. -/
  revoke : Session → τ → τ

/-- A session kept, the identity behind it, and when it ends. -/
structure SessionEntry where
  session : Session
  identity : Identity
  expires : Nat

/-- Whether a session still lives. -/
def SessionEntry.isLive (now : Nat) (entry : SessionEntry) : Bool := now < entry.expires

/-- Sessions in memory, each kept at most once, with the lifetime of new ones in seconds. -/
structure MemorySessions where
  lifetime : Nat
  entries : List SessionEntry
  distinct : (entries.map (·.session)).Nodup

namespace MemorySessions

/-- No sessions yet. -/
def withLifetime (lifetime : Nat) : MemorySessions := ⟨lifetime, [], List.nodup_nil⟩

/-- How many sessions are kept. -/
def size (sessions : MemorySessions) : Nat := sessions.entries.length

/-- What is kept under a session. -/
def find? (sessions : MemorySessions) (session : Session) : Option SessionEntry :=
  sessions.entries.find? fun entry => entry.session = session

/-- Keep the entries that pass a test. -/
def filter (test : SessionEntry → Bool) (sessions : MemorySessions) : MemorySessions where
  lifetime := sessions.lifetime
  entries := sessions.entries.filter test
  distinct := List.Nodup.sublist (List.Sublist.map _ List.filter_sublist) sessions.distinct

/-- Keep no entry under a session. -/
def erase (session : Session) (sessions : MemorySessions) : MemorySessions :=
  sessions.filter fun entry => entry.session ≠ session

/-- Keep an entry, instead of one under the same session. -/
def insert (entry : SessionEntry) (sessions : MemorySessions) : MemorySessions where
  lifetime := sessions.lifetime
  entries := entry :: (sessions.erase entry.session).entries
  distinct := by
    refine List.nodup_cons.mpr ⟨fun member => ?_, (sessions.erase entry.session).distinct⟩
    obtain ⟨other, kept, same⟩ := List.mem_map.mp member
    simp [erase, filter, same] at kept

/-- Issue a session to an identity. -/
def issue (moment : Moment) (identity : Identity) (sessions : MemorySessions) :
    Session × MemorySessions :=
  let session : Session := ⟨identity.username, moment.token⟩
  (session, sessions.insert ⟨session, identity, moment.now + sessions.lifetime⟩)

/-- The identity behind a session; a session found to have ended is dropped. -/
def resolve (moment : Moment) (session : Session) (sessions : MemorySessions) :
    Option Identity × MemorySessions :=
  match sessions.find? session with
  | none => (none, sessions)
  | some entry =>
    if entry.isLive moment.now then (some entry.identity, sessions)
    else (none, sessions.erase session)

/-- Drop the sessions that have ended, and count them. -/
def purge (now : Nat) (sessions : MemorySessions) : Nat × MemorySessions :=
  let live := sessions.filter fun entry => entry.isLive now
  (sessions.size - live.size, live)

/-- Purging removes as many sessions as it reports. -/
theorem purge_add_size (now : Nat) (sessions : MemorySessions) :
    (sessions.purge now).1 + (sessions.purge now).2.size = sessions.size :=
  Nat.sub_add_cancel (List.length_filter_le _ _)

end MemorySessions

instance : SessionStore MemorySessions where
  issue := MemorySessions.issue
  resolve := MemorySessions.resolve
  revoke := MemorySessions.erase

end Gatehouse
