/-
**Nodes.**

A node authenticates requests by the settings and users in its documents.

* `Node.reload`: read the documents again and take them over;
* `Node.authenticate`: the outcome of a request;
* `Node.handle`: the same, after finding the client that the request comes from.
-/

import Gatehouse.Authentication
import Gatehouse.Chain.Builtin
import Gatehouse.Node.Rollout

namespace Gatehouse

/-- A node over a store whose states are of type `σ`, with sessions of type `τ` if it keeps any. -/
structure Node (σ τ : Type) where
  repository : Repository σ (Rollout (Documents σ))
  rollout : Rollout (Documents σ)
  sessions : Option τ

namespace Node

variable {σ τ : Type} [DocumentStore σ]

/-- A node that has not read anything yet. The chain is taken over before the forwarding. -/
def ofStore (store : σ) (types : TypeTable (Documents σ)) (sessions : Option τ) : Node σ τ where
  repository := (Repository.ofStore store
    |>.subscribe configType Rollout.chainListener
    |>.subscribe configType Rollout.forwardingListener)
  rollout := .ofTypes types
  sessions := sessions

/-- Read documents of the given types again and take them over. -/
def reload (types : List String) (node : Node σ τ) :
    Except DocumentError (Table Settings) × Node σ τ :=
  let (loaded, repository, rollout) := node.repository.reload types node.rollout
  (loaded, { node with repository := repository, rollout := rollout })

/-- Read every document that is waited for again and take it over. -/
def reloadSubscribed (node : Node σ τ) : Except DocumentError (Table Settings) × Node σ τ :=
  node.reload node.repository.subscribedTypes

/-- Take over the chain of settings that are in no document. -/
def rebuild (settings : Settings) (node : Node σ τ) : Except DomainError Unit × Node σ τ :=
  let (result, rollout) := node.rollout.rebuild settings
  (result, { node with rollout := rollout })

/-- Load the documents for the first time. A store without a configuration document gives the
default chain. -/
def start (node : Node σ τ) : Node σ τ :=
  let (loaded, node) := node.reloadSubscribed
  match loaded with
  | .ok found =>
    if !found.contains configType && node.repository.documents.ready then (node.rebuild .empty).2
    else node
  | .error _ => node

/-- The document of a type. -/
def get (type : String) (node : Node σ τ) :
    Except DocumentError (Option Settings) × Node σ τ :=
  let (answer, repository) := node.repository.get type
  (answer, { node with repository := repository })

/-- Change the store behind a node. -/
def modifyStore (change : σ → σ) (node : Node σ τ) : Node σ τ :=
  let documents := node.repository.documents
  { node with
    repository := { node.repository with
      documents := { documents with store := change documents.store } } }

/-- What authentication works on. -/
def access (node : Node σ τ) : AccessState (Documents σ) τ :=
  ⟨node.repository.documents, node.sessions, node.rollout.tally⟩

/-- The node with what authentication has changed. -/
def withAccess (node : Node σ τ) (access : AccessState (Documents σ) τ) : Node σ τ where
  repository := { node.repository with documents := access.documents }
  rollout := { node.rollout with tally := access.tally }
  sessions := access.sessions

variable [SessionStore τ]

/-- The outcome of a request. -/
def authenticate (moment : Moment) (request : Request) (node : Node σ τ) :
    Outcome × Node σ τ :=
  let (outcome, access) :=
    node.access.authenticate moment request node.rollout.registry.published
  (outcome, node.withAccess access)

/-- The outcome of a request from a peer, with the address of the client that it comes from. -/
def handle (moment : Moment) (peer : SocketAddress) (request : Request) (node : Node σ τ) :
    Except ForwardingError (SocketAddress × Outcome) × Node σ τ :=
  match node.rollout.forwarding.resolveRequest peer request with
  | (.error error, _) => (.error error, node)
  | (.ok client, request) =>
    let (outcome, node) := node.authenticate moment request
    (.ok (client, outcome), node)

/-- End a session. -/
def revoke (session : Session) (node : Node σ τ) : Node σ τ :=
  { node with sessions := node.sessions.map (SessionStore.revoke session) }

end Node

end Gatehouse
