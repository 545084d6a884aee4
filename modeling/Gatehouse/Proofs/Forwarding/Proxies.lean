/-
**Clients that are proxies.**

Whether an entry of a list is a proxy is read off the entry as it is written, while its address is
read in three ways: bare, with a port, or in square brackets. As long as every entry is judged as
the bare text of its address is, a client that is a proxy is one of a list of proxies. But an entry
with a port or brackets does not match a pattern of bare addresses: the walk stops at it and takes
the proxy for the client.

* `Forwarding.Agrees`: an entry is judged as the bare text of its address;
* **`Forwarding.proxies_of_proxy_client`**: what is known if the client is a proxy;
* `Forwarding.proxy_behind_port`: a proxy that is taken for the client.
-/

import Gatehouse.Proofs.Forwarding.Rewriting

namespace Gatehouse

namespace Forwarding

variable {forwarding : Forwarding} {peer : SocketAddress} {request : Request}

/-- An entry is judged as the bare text of its address. -/
def Agrees (forwarding : Forwarding) (entry : String) : Prop :=
  ∀ ip, address? entry = some ip → forwarding.isProxy entry = forwarding.isProxy ip.toText

/-- From a proxy that lists addresses, the client is the address of an entry behind which there are
only proxies, and which is no proxy or the first one. -/
theorem exists_client (enabled : forwarding.enabled = true)
    (proxy : forwarding.isProxy peer.ip.toText = true) (listed : forwarding.entries request ≠ [])
    (addresses : ∀ entry ∈ forwarding.entries request, ∃ ip, address? entry = some ip) :
    ∃ farther entry nearer ip, forwarding.entries request = farther ++ entry :: nearer ∧
      (∀ other ∈ nearer, forwarding.isProxy other = true) ∧
      (forwarding.isProxy entry = false ∨ farther = []) ∧
      address? entry = some ip ∧ forwarding.resolve peer request = .ok ⟨ip, peer.port, 0⟩ := by
  obtain ⟨farther, entry, nearer, split, proxies, stops, walked⟩ := exists_split forwarding listed
  have member : entry ∈ forwarding.entries request :=
    split ▸ List.mem_append_right _ List.mem_cons_self
  obtain ⟨ip, address⟩ := addresses entry member
  have accepted : forwarding.resolution peer request = .ok ⟨⟨ip, peer.port, 0⟩,
      (entry :: nearer).filter forwarding.isRecorded, farther⟩ := by
    rw [resolution_of_proxy enabled proxy, walked]
    exact ofPassage_of_address address
  refine ⟨farther, entry, nearer, ip, split, proxies, stops, address, ?_⟩
  rw [resolve, accepted]
  rfl

/-- **A client that is a proxy.** Let a proxy list addresses, in any of the accepted forms. Then a
client is found. If the bare text of its address is that of a proxy, all entries are written as
proxies are, or the entry of the client is not, and it is not the bare text of its address. So if
every entry is judged as the bare text of its address is, every listed address is that of a
proxy. -/
theorem proxies_of_proxy_client (forwarding : Forwarding) (peer : SocketAddress) (request : Request)
    (enabled : forwarding.enabled = true) (proxy : forwarding.isProxy peer.ip.toText = true)
    (addresses : ∀ entry ∈ forwarding.entries request, ∃ ip, address? entry = some ip) :
    ∃ client, forwarding.resolve peer request = .ok client ∧
      (forwarding.isProxy client.ip.toText = true →
        (∀ entry ∈ forwarding.entries request, forwarding.isProxy entry = true) ∨
        ∃ entry ∈ forwarding.entries request, address? entry = some client.ip ∧
          forwarding.isProxy entry = false ∧ entry ≠ client.ip.toText) ∧
      ((∀ entry ∈ forwarding.entries request, forwarding.Agrees entry) →
        forwarding.isProxy client.ip.toText = true →
        ∀ entry ∈ forwarding.entries request, ∀ ip, address? entry = some ip →
          forwarding.isProxy ip.toText = true) := by
  by_cases listed : forwarding.entries request = []
  · refine ⟨peer, ?_, fun _ => .inl ?_, fun _ _ => ?_⟩
    · rw [resolve, resolution_of_no_entries listed]
      rfl
    · rw [listed]
      exact fun entry impossible => (List.not_mem_nil impossible).elim
    · rw [listed]
      exact fun entry impossible => (List.not_mem_nil impossible).elim
  · obtain ⟨farther, entry, nearer, ip, split, proxies, stops, address, resolved⟩ :=
      exists_client enabled proxy listed addresses
    have member : entry ∈ forwarding.entries request :=
      split ▸ List.mem_append_right _ List.mem_cons_self
    -- if the entry of the client is written as a proxy is, it is the first one
    have all : forwarding.isProxy entry = true →
        ∀ other ∈ forwarding.entries request, forwarding.isProxy other = true := by
      intro written
      have first : farther = [] := stops.resolve_left (by rw [written]; decide)
      rw [split, first, List.nil_append]
      exact List.forall_mem_cons.mpr ⟨written, proxies⟩
    refine ⟨_, resolved, fun caught => ?_, fun agree caught other listed ip address => ?_⟩
    · by_cases written : forwarding.isProxy entry = true
      · exact .inl (all written)
      · refine .inr ⟨entry, member, address, Bool.eq_false_iff.mpr written, fun bare => ?_⟩
        exact written (bare ▸ caught)
    · have written : forwarding.isProxy entry = true := (agree entry member _ ‹_›).trans caught
      exact (agree other listed ip address).symm.trans (all written other listed)

/-- A request with one line that lists addresses. -/
def listed (line : String) : Request :=
  { Request.blank with headers := Table.ofList [("x-forwarded-for", line)] }

theorem proxies_of_farthest :
    let proxy : SocketAddress := ⟨.v4 10 0 0 1, 4242, 0⟩
    let request := listed "10.0.0.3, 192.0.2.8"
    outerGate.resolve proxy request = .ok ⟨.v4 10 0 0 3, 4242, 0⟩ ∧
      ∀ entry ∈ outerGate.entries request, ∀ ip, address? entry = some ip →
        outerGate.isProxy ip.toText = true := by
  intro proxy request
  have entries : outerGate.entries request = ["10.0.0.3", "192.0.2.8"] := by decide +kernel
  have first : address? "10.0.0.3" = some (.v4 10 0 0 3) := by decide +kernel
  have second : address? "192.0.2.8" = some (.v4 192 0 2 8) := by decide +kernel
  have addresses : ∀ entry ∈ outerGate.entries request, ∃ ip, address? entry = some ip := by
    rw [entries]
    exact List.forall_mem_cons.mpr ⟨⟨_, first⟩, List.forall_mem_singleton.mpr ⟨_, second⟩⟩
  have agree : ∀ entry ∈ outerGate.entries request, outerGate.Agrees entry := by
    rw [entries]
    refine List.forall_mem_cons.mpr ⟨fun ip address => ?_, List.forall_mem_singleton.mpr
      fun ip address => ?_⟩
    · cases first.symm.trans address
      decide +kernel
    · cases second.symm.trans address
      decide +kernel
  have resolved : outerGate.resolve proxy request = .ok ⟨.v4 10 0 0 3, 4242, 0⟩ := by decide +kernel
  obtain ⟨client, found, _, all⟩ :=
    proxies_of_proxy_client outerGate proxy request rfl (by decide +kernel) addresses
  cases resolved.symm.trans found
  exact ⟨resolved, all agree (by decide +kernel)⟩

/-- A proxy that is listed with its port is taken for the client, though an address that is no proxy
stands before it. -/
theorem proxy_behind_port :
    let proxy : SocketAddress := ⟨.v4 10 0 0 1, 4711, 0⟩
    let request := listed "203.0.113.9, 10.0.0.2:8080"
    standard.enabled = true ∧ standard.isProxy proxy.ip.toText = true ∧
    standard.entries request = ["203.0.113.9", "10.0.0.2:8080"] ∧
    address? "203.0.113.9" = some (.v4 203 0 113 9) ∧
    address? "10.0.0.2:8080" = some (.v4 10 0 0 2) ∧
    standard.resolve proxy request = .ok ⟨.v4 10 0 0 2, 4711, 0⟩ ∧
    standard.isProxy (IpAddress.v4 10 0 0 2).toText = true ∧
    standard.isProxy (IpAddress.v4 203 0 113 9).toText = false := by
  decide +kernel

end Forwarding

end Gatehouse
