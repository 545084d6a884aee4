/-
**Refusals that tell nothing.**

A password can be refused for many reasons: the user is not known, the secret is wrong or empty, the
stored hash cannot be used, the users cannot be read, or the header is not the form of a user and a
secret. The response is the same for all of them, to the last byte, so that nobody can find out from
it who has an account.

* `Basic.extract_ne_none`: a header of the scheme is never taken for a request without credentials;
* `FrontDoor.FailedLogin`: a login that no domain accepts, for whatever reason;
* `FrontDoor.FailedLogin.respond`: the response to it;
* **`FrontDoor.respond_of_failedLogins`**: any two failed logins are answered alike.
-/

import Gatehouse.Proofs.Chain.Walk
import Gatehouse.Proofs.Node.Clients

namespace Gatehouse

open Text (Bytes)

/-! ### Headers of the scheme -/

namespace Basic

theorem afterScheme?_of_scheme (text : String) :
    afterScheme? typeName ("Basic " ++ text).toList = some text.toList := by
  rw [String.toList_append]
  rfl

/-- A header that begins with the scheme holds credentials or is refused: it is never passed over. -/
theorem extract_ne_none {request : Request} {text : String}
    (header : request.header? headerName = some ("Basic " ++ text)) :
    extract request ≠ .ok none := by
  intro silent
  unfold extract at silent
  rw [header, Option.bind_some, afterScheme?_of_scheme] at silent
  cases read : ofEncoded text.toList with
  | error fault => simp only [read] at silent; cases silent
  | ok credentials => simp only [read] at silent; cases silent

end Basic

namespace FrontDoor

open Http (Response)
open MemorySessions (momentAt)

/-! ### Failed logins -/

section Logins

variable {σ τ : Type} [DocumentStore σ] [SessionStore τ]

/-- There is one line for credentials. It begins with the scheme and has a text. -/
def HasLogin (request : Http.Request) : Prop :=
  ∃ text, linesNamed Basic.headerName request.headers = [Text.encode ("Basic " ++ text)] ∧
    (Text.encode ("Basic " ++ text)).all isVisible = true

/-- A login that fails at a node. All domains take a user and a secret from a header and compare the
secret, and nobody is granted the anonymous identity. The request is authenticated, presents no
session that still lives and lists no addresses, and no domain that is tried accepts its login. -/
structure FailedLogin (metrics : Bool) (moment : Moment) (peer : SocketAddress)
    (request : Http.Request) (node : Node σ τ) (chain : Chain (Documents σ)) : Prop where
  published : node.rollout.registry.published = some chain
  comparing : ∀ domain ∈ chain.domains,
    (∃ realm, domain.extractor = Basic.extractor realm) ∧ domain.backend = Internal.backend σ
  nobody : chain.anonymous = false
  closed : ¬ IsOpen metrics request
  login : HasLogin request
  direct : linesNamed node.rollout.forwarding.remoteHeader request.headers = []
  fresh : (node.access.resume moment (requestOf peer request)).1 = none
  refused : ∀ domain reached identity,
    Reaches moment.now (requestOf peer request) chain.domains node.access.documents domain reached →
    ¬ domain.Accepts moment.now (requestOf peer request) reached identity

variable {metrics : Bool} {moment : Moment} {peer : SocketAddress} {request : Http.Request}
variable {node : Node σ τ} {chain : Chain (Documents σ)}

theorem header?_of_hasLogin (peer : SocketAddress) (login : HasLogin request) :
    ∃ text, (requestOf peer request).header? Basic.headerName = some ("Basic " ++ text) := by
  obtain ⟨text, line, visible⟩ := login
  have read := visibleText?_eq_some_iff.mpr ⟨visible, rfl⟩
  refine ⟨text, ?_⟩
  rw [header?_requestOf, textsNamed, line, List.filterMap_cons_some read]
  rfl

/-- The login passes all domains. -/
theorem FailedLogin.outcome (fails : FailedLogin metrics moment peer request node chain) :
    (node.authenticate moment (requestOf peer request)).1 = .rejected := by
  obtain ⟨text, header⟩ := header?_of_hasLogin peer fails.login
  unfold Node.authenticate
  rw [fails.published]
  refine (AccessState.authenticate_eq_rejected_iff fails.fresh).mpr ⟨?_, fails.nobody⟩
  rcases Decision.walk_cases moment.now (requestOf peer request) chain.domains
      node.access.documents with
    ⟨domain, reached, identity, reaches, accepts, _⟩ |
    ⟨domain, reached, challenge, reaches, asks, _⟩ | ⟨later, passed, _⟩
  · exact (fails.refused domain reached identity reaches accepts).elim
  · obtain ⟨⟨realm, basic⟩, _⟩ := fails.comparing domain reaches.mem
    have silent := asks.1
    rw [basic] at silent
    exact (Basic.extract_ne_none header silent).elim
  · exact ⟨later, passed⟩

/-- A failed login is answered with the one response for all that is not accepted. -/
theorem FailedLogin.respond (fails : FailedLogin metrics moment peer request node chain) :
    (FrontDoor.respond metrics moment peer request node).1 = unauthorized := by
  have unlisted :
      Forwarding.entriesOf (linesNamed node.rollout.forwarding.remoteHeader request.headers) =
        [] := by rw [fails.direct]; rfl
  rw [respond_of_no_entries fails.closed unlisted, answerFor, Forwarding.asFromClient_unresolved]
  show responseOf _ _ (node.authenticate moment (requestOf peer request)).1 = unauthorized
  rw [fails.outcome]
  rfl

/-- **Refusals are alike.** Whatever lets two logins fail, at whatever nodes, with whatever users and
secrets, for whatever paths: the responses have the same status, headers and body, and no header that
asks for credentials. -/
theorem respond_of_failedLogins {metrics₁ metrics₂ : Bool} {moment₁ moment₂ : Moment}
    {peer₁ peer₂ : SocketAddress} {request₁ request₂ : Http.Request} {node₁ node₂ : Node σ τ}
    {chain₁ chain₂ : Chain (Documents σ)}
    (first : FailedLogin metrics₁ moment₁ peer₁ request₁ node₁ chain₁)
    (second : FailedLogin metrics₂ moment₂ peer₂ request₂ node₂ chain₂) :
    (respond metrics₁ moment₁ peer₁ request₁ node₁).1 =
      (respond metrics₂ moment₂ peer₂ request₂ node₂).1 ∧
    linesNamed "WWW-Authenticate"
      (respond metrics₁ moment₁ peer₁ request₁ node₁).1.headers = [] := by
  rw [first.respond, second.respond]
  exact ⟨rfl, by decide⟩

end Logins

/-- A chain of one domain that compares secrets. -/
def deskChain : Chain (Documents MemoryStore) where
  domains := [⟨"desk", 0, true, Basic.extractor "hall", Internal.backend _⟩]
  anonymous := false
  sorted := List.pairwise_singleton _ _

/-- A node with this chain and the given users. -/
def deskOf (users : String) : Node MemoryStore MemorySessions :=
  let store := { MemoryStore.empty with documents := Table.empty.put usersType users }
  let node := Node.ofStore store (.builtin MemoryStore) none
  let registry := { node.rollout.registry with published := some deskChain }
  { node with rollout := { node.rollout with registry := registry } }

/-- A request with a line for credentials. -/
def loginOf (text : String) : Http.Request where
  method := "GET"
  target := "/bridge"
  headers := [("Authorization", Text.encode ("Basic " ++ text))]

theorem failedLogin_deskOf {users text : String} {peer : SocketAddress}
    (visible : (Text.encode ("Basic " ++ text)).all isVisible = true)
    (exhausted : (Decision.walk 0 (requestOf peer (loginOf text)) deskChain.domains
      (deskOf users).access.documents).1 = .exhausted) :
    FailedLogin false (momentAt 0 1) peer (loginOf text) (deskOf users) deskChain where
  published := rfl
  comparing domain member := by
    cases List.mem_singleton.mp member
    exact ⟨⟨"hall", rfl⟩, rfl⟩
  nobody := rfl
  closed := by
    have path : (loginOf text).path = "/bridge" := by
      show (loginOf "").path = "/bridge"
      decide +kernel
    simp [IsOpen, path]
  login := ⟨text, (linesNamed_singleton ..).trans (if_pos (by decide)), visible⟩
  direct := by
    have other : Text.lowerAscii "Authorization" ≠
        Text.lowerAscii Forwarding.defaultRemoteHeader := by decide
    exact (linesNamed_singleton ..).trans (if_neg other)
  fresh := rfl
  refused domain reached identity reaches accepts := by
    have accepted := Decision.walk_eq_accepted_iff.mpr ⟨domain, reached, reaches, rfl, accepts⟩
    rw [show (momentAt 0 1).now = 0 from rfl, exhausted] at accepted
    cases accepted

/-- A user whose stored hash cannot be used, and one without a secret where the users cannot be
read. -/
theorem respond_of_spock_and_kirk :
    (respond false (momentAt 0 1) ⟨.v4 10 0 0 1, 4242, 0⟩ (loginOf "c3BvY2s6dHJpYmJsZQ==")
        (deskOf "spock: {hash: x}")).1 =
      (respond false (momentAt 0 1) ⟨.v4 10 0 0 1, 4242, 0⟩ (loginOf "a2lyazo=")
        (deskOf "kirk: [")).1 := by
  have spock : FailedLogin false (momentAt 0 1) ⟨.v4 10 0 0 1, 4242, 0⟩
      (loginOf "c3BvY2s6dHJpYmJsZQ==") (deskOf "spock: {hash: x}") deskChain :=
    failedLogin_deskOf (by decide +kernel) (by decide +kernel)
  have kirk : FailedLogin false (momentAt 0 1) ⟨.v4 10 0 0 1, 4242, 0⟩ (loginOf "a2lyazo=")
      (deskOf "kirk: [") deskChain :=
    failedLogin_deskOf (by decide +kernel) (by decide +kernel)
  exact (respond_of_failedLogins spock kirk).1

end FrontDoor

end Gatehouse
