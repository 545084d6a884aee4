/-
**Clients of requests.**

The front door answers a request in the name of its client. If a proxy sends it, the client is one of
the listed addresses, and a request whose client is listed in words that are no address is refused:
the address of the proxy never stands in for it.

This is so as far as the lines that list the addresses have a text. A line with a byte that is no
visible character is left out with all its entries, those that are addresses included. If no entry is
left, the request is answered in the name of the proxy.

* `FrontDoor.IsOpen`: the pages that are open to all;
* `FrontDoor.answerFor`: the answer to a request whose client has been found;
* `FrontDoor.respond_of_hidden_lines`: lines that are left out do not count, whatever they list;
* **`FrontDoor.respond_of_entries`**: the answer to a request from a proxy.
-/

import Gatehouse.Proofs.Forwarding.Passage
import Gatehouse.Proofs.Session.Ledger

namespace Gatehouse

namespace FrontDoor

open Forwarding (entriesOf address?)
open Http (Response)
open MemorySessions (momentAt)
open Text (Bytes)

/-! ### Pages -/

/-- A request for the page of health, or for the page of the counters if it is on. -/
def IsOpen (metrics : Bool) (request : Http.Request) : Prop :=
  request.method = "GET" ∧
    (request.path = "/health" ∨ metrics = true ∧ request.path = "/metrics")

instance (metrics : Bool) (request : Http.Request) : Decidable (IsOpen metrics request) :=
  inferInstanceAs (Decidable (_ ∧ _))

section Answers

variable {σ τ : Type} [SessionStore τ]
variable {metrics : Bool} {moment : Moment} {peer : SocketAddress} {request : Http.Request}
variable {node : Node σ τ}

/-- All other requests are authenticated. -/
theorem respond_of_not_open (closed : ¬ IsOpen metrics request) :
    respond metrics moment peer request node = answer moment peer request node := by
  unfold IsOpen at closed
  unfold respond
  rw [if_neg, if_neg]
  · simp only [Bool.and_eq_true, decide_eq_true_eq, and_assoc]
    exact fun page => closed ⟨page.2.1, .inr ⟨page.1, page.2.2⟩⟩
  · simp only [Bool.and_eq_true, decide_eq_true_eq]
    exact fun page => closed ⟨page.1, .inl page.2⟩

/-! ### The answer for a client -/

/-- The answer to a request whose client has been found. -/
def answerFor (moment : Moment) (peer : SocketAddress) (request : Http.Request)
    (resolution : Resolution) (node : Node σ τ) : Response × Node σ τ :=
  let (outcome, after) := node.authenticate moment
    (node.rollout.forwarding.asFromClient peer resolution (requestOf peer request))
  (responseOf moment.now resolution.client outcome, after)

theorem answer_of_resolved {resolution : Resolution}
    (resolved : node.rollout.forwarding.resolution peer (requestOf peer request) =
      .ok resolution) :
    answer moment peer request node = answerFor moment peer request resolution node := by
  unfold answer Node.handle Forwarding.resolveRequest
  rw [resolved]
  rfl

theorem answer_of_unresolvable {error : ForwardingError}
    (unresolvable : node.rollout.forwarding.resolution peer (requestOf peer request) =
      .error error) :
    answer moment peer request node = (forbidden, record clientFailure node) := by
  unfold answer Node.handle Forwarding.resolveRequest
  rw [unresolvable]

/-- A request that lists no entry in lines with a text is answered for its peer. -/
theorem respond_of_no_entries (closed : ¬ IsOpen metrics request)
    (unlisted :
      entriesOf (linesNamed node.rollout.forwarding.remoteHeader request.headers) = []) :
    respond metrics moment peer request node =
      answerFor moment peer request (Forwarding.unresolved peer) node := by
  rw [respond_of_not_open closed]
  refine answer_of_resolved (Forwarding.resolution_of_no_entries ?_)
  rw [Forwarding.entries_requestOf, unlisted]

/-- So is a request whose lines all have a byte that is not visible, whatever they list. -/
theorem respond_of_hidden_lines (closed : ¬ IsOpen metrics request)
    (hidden : ∀ line ∈ linesNamed node.rollout.forwarding.remoteHeader request.headers,
      line.all isVisible = false) :
    respond metrics moment peer request node =
      answerFor moment peer request (Forwarding.unresolved peer) node :=
  respond_of_no_entries closed (Forwarding.entriesOf_of_hidden hidden)

/-- **Whose name a request is answered in.** For a request from a proxy, other than for an open page,
the last listed entry that is no proxy decides, or the first one if all are proxies. If it is an
address, the request is answered for this address with the port of the proxy; otherwise it is
refused. The proxy stands in as the client only if no entry is listed in a line with a text. -/
theorem respond_of_entries (metrics : Bool) (moment : Moment) (peer : SocketAddress)
    (request : Http.Request) (node : Node σ τ) (enabled : node.rollout.forwarding.enabled = true)
    (proxy : node.rollout.forwarding.isProxy peer.ip.toText = true)
    (closed : ¬ IsOpen metrics request) :
    let entries := entriesOf (linesNamed node.rollout.forwarding.remoteHeader request.headers)
    (entries ≠ [] → ∃ farther entry nearer, entries = farther ++ entry :: nearer ∧
      (∀ other ∈ nearer, node.rollout.forwarding.isProxy other = true) ∧
      (node.rollout.forwarding.isProxy entry = false ∨ farther = []) ∧
      (address? entry = none →
        respond metrics moment peer request node = (forbidden, record clientFailure node)) ∧
      ∀ ip, address? entry = some ip →
        respond metrics moment peer request node =
          answerFor moment peer request ⟨⟨ip, peer.port, 0⟩,
            (entry :: nearer).filter node.rollout.forwarding.isRecorded, farther⟩ node) ∧
    (entries = [] → respond metrics moment peer request node =
      answerFor moment peer request (Forwarding.unresolved peer) node) := by
  intro entries
  refine ⟨fun many => ?_, fun empty => respond_of_no_entries closed empty⟩
  have listed : node.rollout.forwarding.entries (requestOf peer request) = entries :=
    Forwarding.entries_requestOf request
  obtain ⟨passage, passed, farther, walked, whole, ends⟩ :=
    Forwarding.exists_descend node.rollout.forwarding (List.reverse_ne_nil_iff.mpr many)
  have resolution : node.rollout.forwarding.resolution peer (requestOf peer request) =
      Forwarding.ofPassage peer passage := by
    rw [Forwarding.resolution_of_proxy enabled proxy, listed, walked]
  rw [respond_of_not_open closed]
  refine ⟨farther.reverse, passage.entry, passed.reverse, ?_, ?_, ?_, fun words => ?_,
    fun ip address => ?_⟩
  · rw [← List.reverse_reverse entries, whole]
    simp
  · exact fun other member => ends.proxies other (List.mem_reverse.mp member)
  · exact ends.stops.imp_right List.reverse_eq_nil_iff.mpr
  · rw [Forwarding.ofPassage_of_no_address words] at resolution
    exact answer_of_unresolvable resolution
  · rw [Forwarding.ofPassage_of_address address, ends.trusted, ends.remaining,
      ← List.filter_reverse, List.reverse_append] at resolution
    exact answer_of_resolved resolution

end Answers

/-- A node behind proxies that grants the anonymous identity to everyone without a badge. -/
def lobby : Node MemoryStore MemorySessions :=
  let node := Node.ofStore MemoryStore.empty (.builtin MemoryStore) none
  let badge := ⟨"badge", 0, true, Proxy.extractor "x-user" "x-roles", Noop.backend _⟩
  let registry := { node.rollout.registry with published := some (.ofDomains [badge] true) }
  { node with rollout := { node.rollout with registry := registry, forwarding := .outerGate } }

/-- A request with one line that lists addresses. -/
def listing (line : Bytes) : Http.Request :=
  { method := "GET", target := "/bridge", headers := [("X-Forwarded-For", line)] }

theorem respond_unknown :
    let proxy : SocketAddress := ⟨.v4 10 0 0 1, 4242, 0⟩
    respond false (momentAt 0 1) proxy (listing (Text.encode "unknown")) lobby =
      (forbidden, record clientFailure lobby) := by
  intro proxy
  have entries : entriesOf (linesNamed lobby.rollout.forwarding.remoteHeader
      (listing (Text.encode "unknown")).headers) = ["unknown"] := by decide +kernel
  obtain ⟨farther, entry, nearer, whole, _, _, refused, _⟩ :=
    (respond_of_entries false (momentAt 0 1) proxy (listing (Text.encode "unknown")) lobby rfl
      (by decide +kernel) (by decide +kernel)).1 (by rw [entries]; exact List.cons_ne_nil _ _)
  rw [entries] at whole
  have first : entry = "unknown" := by
    have member : entry ∈ ["unknown"] := whole ▸ List.mem_append_right _ List.mem_cons_self
    exact List.mem_singleton.mp member
  subst first
  exact refused (by decide +kernel)

/-- A line that lists an address, behind an entry that is no text, is left out: the request is
answered for the proxy that has sent it. -/
theorem respond_garbled :
    let proxy : SocketAddress := ⟨.v4 10 0 0 1, 4242, 0⟩
    let line := [0xFF] ++ Text.encode ", 203.0.113.9"
    let response := (respond false (momentAt 0 1) proxy (listing line) lobby).1
    lobby.rollout.forwarding.enabled = true ∧
    lobby.rollout.forwarding.isProxy proxy.ip.toText = true ∧
    ¬ IsOpen false (listing line) ∧
    linesNamed lobby.rollout.forwarding.remoteHeader (listing line).headers = [line] ∧
    address? "203.0.113.9" = some (.v4 203 0 113 9) ∧
    response = responseOf 0 proxy (.authenticated .anonymous none none) ∧
    response ≠ forbidden := by
  intro proxy line response
  have closed : ¬ IsOpen false (listing line) := by decide +kernel
  have hidden : ∀ other ∈ linesNamed lobby.rollout.forwarding.remoteHeader (listing line).headers,
      other.all isVisible = false := by decide +kernel
  have answered : response = responseOf 0 proxy (.authenticated .anonymous none none) :=
    (congrArg Prod.fst (respond_of_hidden_lines closed hidden)).trans (by decide +kernel)
  refine ⟨by decide +kernel, by decide +kernel, closed, by decide +kernel, by decide +kernel,
    answered, ?_⟩
  rw [answered]
  decide +kernel

end FrontDoor

end Gatehouse
