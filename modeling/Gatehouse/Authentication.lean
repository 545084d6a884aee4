/-
**Authentication of a request.**

A session that still lives authenticates a request by itself. Otherwise the domains of the chain are
tried in order until one accepts credentials or asks for them; a request that none decides is
granted the anonymous identity or rejected.

* `Trial.ofDomain`: what one domain makes of a request;
* `Decision.walk`: what the domains of a chain make of it;
* `AccessState.authenticate`: the outcome, with everything it changes.
-/

import Gatehouse.Chain.Domain
import Gatehouse.Metrics
import Gatehouse.Session.Store

namespace Gatehouse

/-- What a request comes to. -/
inductive Outcome where
  /-- The caller is known. A session and the anonymous identity name no domain. -/
  | authenticated (identity : Identity) (session : Option Session) (domain : Option String)
  /-- The client is asked for credentials for a domain. -/
  | challenged (domain : String) (challenge : Challenge)
  /-- No domain accepts the request. -/
  | rejected
  /-- There is no chain yet. -/
  | unavailable
deriving DecidableEq

/-! ### Domains -/

/-- What one domain makes of a request. -/
inductive Trial where
  /-- The backend accepts the credentials. -/
  | accepted (identity : Identity)
  /-- There are no credentials, and the domain asks for them. -/
  | asked (challenge : Challenge)
  /-- There are no credentials, and the domain does not ask. -/
  | silent
  /-- The credentials cannot be read or are not accepted. -/
  | failed (error : AccessError)
deriving DecidableEq

namespace Trial

variable {δ : Type}

/-- The challenge of a domain for a request without credentials. -/
def ofSilence (domain : Domain δ) : Trial :=
  if domain.challenges then
    match domain.extractor.challenge none with
    | some challenge => .asked challenge
    | none => .silent
  else .silent

/-- What a domain makes of a request. -/
def ofDomain (domain : Domain δ) (now : Nat) (request : Request) (documents : δ) : Trial × δ :=
  match domain.extractor.extract now request with
  | .error error => (.failed error, documents)
  | .ok none => (ofSilence domain, documents)
  | .ok (some credentials) =>
    let (result, documents) := domain.backend.authenticate credentials documents
    match result with
    | .ok identity => (.accepted identity, documents)
    | .error error => (.failed error, documents)

/-- What is counted for a trial of a domain. -/
def events (domain : String) : Trial → List Event
  | .accepted _ => [.attempt domain true]
  | .asked _ => [.challenge domain]
  | .silent => []
  | .failed _ => [.attempt domain false]

end Trial

/-- What the domains of a chain make of a request. -/
inductive Decision where
  | accepted (domain : String) (identity : Identity)
  | asked (domain : String) (challenge : Challenge)
  /-- No domain accepts the request or asks for credentials. -/
  | exhausted
deriving DecidableEq

/-- Try domains in order until one decides, and list what is counted on the way. -/
def Decision.walk {δ : Type} (now : Nat) (request : Request) :
    List (Domain δ) → δ → Decision × List Event × δ
  | [], documents => (.exhausted, [], documents)
  | domain :: rest, documents =>
    let (trial, documents) := Trial.ofDomain domain now request documents
    match trial with
    | .accepted identity => (.accepted domain.name identity, trial.events domain.name, documents)
    | .asked challenge => (.asked domain.name challenge, trial.events domain.name, documents)
    | .silent | .failed _ =>
      let (decision, events, documents) := walk now request rest documents
      (decision, trial.events domain.name ++ events, documents)

/-! ### Requests -/

/-- What authentication works on: the documents that backends read, the sessions if they are in use,
and the counters. -/
structure AccessState (δ τ : Type) where
  documents : δ
  sessions : Option τ
  tally : Tally

namespace AccessState

variable {δ τ : Type} [SessionStore τ]

def record (events : List Event) (state : AccessState δ τ) : AccessState δ τ :=
  { state with tally := events.foldl (fun tally event => tally.record event) state.tally }

/-- The session that a request presents. -/
def presented? (request : Request) : Option Session :=
  (request.header? Session.headerName).bind Session.ofHeader?

/-- The session that a request presents and the identity behind it, if it still lives. -/
def resume (moment : Moment) (request : Request) (state : AccessState δ τ) :
    Option (Session × Identity) × AccessState δ τ :=
  match state.sessions, presented? request with
  | some store, some session =>
    let (identity, store) := SessionStore.resolve moment session store
    (identity.map fun identity => (session, identity), { state with sessions := some store })
  | _, _ => (none, state)

/-- Issue a session to an identity, if sessions are in use. -/
def issue (moment : Moment) (identity : Identity) (state : AccessState δ τ) :
    Option Session × AccessState δ τ :=
  match state.sessions with
  | none => (none, state)
  | some store =>
    let (session, store) := SessionStore.issue moment identity store
    (some session, { state with sessions := some store })

/-- The outcome of what a chain decides. -/
def conclude (moment : Moment) (anonymous : Bool) (state : AccessState δ τ) :
    Decision → Outcome × AccessState δ τ
  | .accepted domain identity =>
    let (session, state) := state.issue moment identity
    (.authenticated identity session (some domain), state)
  | .asked domain challenge => (.challenged domain challenge, state)
  | .exhausted =>
    if anonymous then
      (.authenticated .anonymous none none, state.record [.anonymousGrant])
    else (.rejected, state.record [.rejection])

/-- The outcome of trying a chain. -/
def tryChain (moment : Moment) (request : Request) (chain : Chain δ) (state : AccessState δ τ) :
    Outcome × AccessState δ τ :=
  let (decision, events, documents) :=
    Decision.walk moment.now request chain.domains state.documents
  conclude moment chain.anonymous ({ state with documents := documents }.record events) decision

/-- The outcome of a request under the published chain. -/
def authenticate (moment : Moment) (request : Request) (published : Option (Chain δ))
    (state : AccessState δ τ) : Outcome × AccessState δ τ :=
  match published with
  | none => (.unavailable, state)
  | some chain =>
    let (resumed, state) := state.resume moment request
    match resumed with
    | some (session, identity) =>
      (.authenticated identity (some session) none, state.record [.sessionHit])
    | none => state.tryChain moment request chain

end AccessState

end Gatehouse
