/-
**Requests that are passed on.**

The walk over a list of addresses finds the last entry that is no proxy, or the first entry if all
are proxies. The request is then passed on as it would have come from there: what stands before that
entry is left of the list, and the trusted proxies from it on are recorded. A request whose entry is
no address is refused and stays as it is.

* `Forwarding.clientPlace`: where the entry of the client stands, as a greatest index;
* `Forwarding.descend_reverse`: what the walk gives, in terms of that place;
* **`Forwarding.resolveRequest_of_place`**: the answer and every header of the request passed on.
-/

import Gatehouse.Proofs.Forwarding.Passage
import Mathlib.Data.Nat.Find

namespace Gatehouse

namespace Forwarding

variable {forwarding : Forwarding} {peer : SocketAddress} {request : Request}

/-! ### The place of the client -/

/-- Where the entry of the client stands in a list of entries: the greatest place of an entry that
is no proxy, or the first place if there is none. -/
def clientPlace (forwarding : Forwarding) (entries : List String) : Nat :=
  Nat.findGreatest
    (fun place => (entries[place]?).any (fun entry => !forwarding.isProxy entry) = true)
    (entries.length - 1)

/-- If only proxies follow an entry, and it is no proxy or the first one, it is that of the client.
-/
theorem clientPlace_eq {farther nearer : List String} {entry : String}
    (proxies : ∀ other ∈ nearer, forwarding.isProxy other = true)
    (stops : forwarding.isProxy entry = false ∨ farther = []) :
    forwarding.clientPlace (farther ++ entry :: nearer) = farther.length := by
  refine Nat.findGreatest_eq_iff.mpr ⟨?_, fun behind => ?_, fun place after _ => ?_⟩
  · rw [List.length_append, List.length_cons]
    omega
  · have client : forwarding.isProxy entry = false :=
      stops.resolve_right fun first => behind (by rw [first]; rfl)
    simp [client]
  · obtain ⟨distance, rfl⟩ : ∃ distance, place = farther.length + (distance + 1) :=
      ⟨place - farther.length - 1, by omega⟩
    rw [List.getElem?_append_right (by omega), Nat.add_sub_cancel_left, List.getElem?_cons_succ]
    cases there : nearer[distance]? with
    | none => simp
    | some other => simp [proxies other (List.mem_of_getElem? there)]

/-- **The walk over a list of entries** splits it at an entry behind which there are only proxies,
and which is no proxy or the first one. -/
theorem exists_split (forwarding : Forwarding) {entries : List String} (listed : entries ≠ []) :
    ∃ farther entry nearer, entries = farther ++ entry :: nearer ∧
      (∀ other ∈ nearer, forwarding.isProxy other = true) ∧
      (forwarding.isProxy entry = false ∨ farther = []) ∧
      forwarding.descend entries.reverse =
        some ⟨entry, (entry :: nearer).filter forwarding.isRecorded, farther⟩ := by
  obtain ⟨passage, passed, farther, walked, whole, ends⟩ :=
    exists_descend forwarding (List.reverse_ne_nil_iff.mpr listed)
  have split : entries = farther.reverse ++ passage.entry :: passed.reverse := by
    rw [← List.reverse_reverse entries, whole]
    simp
  have trusted : passage.trusted =
      (passage.entry :: passed.reverse).filter forwarding.isRecorded := by
    rw [ends.trusted, ← List.filter_reverse, List.reverse_append]
    rfl
  refine ⟨farther.reverse, passage.entry, passed.reverse, split, fun other member => ?_, ?_, ?_⟩
  · exact ends.proxies other (List.mem_reverse.mp member)
  · exact ends.stops.imp_right List.reverse_eq_nil_iff.mpr
  · rw [walked, ← trusted, ← ends.remaining]

/-- The walk ends at the place of the client. It has recorded the trusted proxies from there on, and
the entries before that place remain. -/
theorem descend_reverse (forwarding : Forwarding) {entries : List String} (listed : entries ≠ []) :
    let place := forwarding.clientPlace entries
    ∃ entry, entries[place]? = some entry ∧
      forwarding.descend entries.reverse =
        some ⟨entry, (entries.drop place).filter forwarding.isRecorded, entries.take place⟩ := by
  intro place
  obtain ⟨farther, entry, nearer, split, proxies, stops, walked⟩ := exists_split forwarding listed
  have here : place = farther.length :=
    (congrArg forwarding.clientPlace split).trans (clientPlace_eq proxies stops)
  refine ⟨entry, ?_, ?_⟩
  · rw [here, split, List.getElem?_append_right (Nat.le_refl _), Nat.sub_self]
    rfl
  · rw [walked, here, split, List.drop_left, List.take_left]

/-- From a proxy, the entry at the place of the client decides. -/
theorem resolution_of_place (enabled : forwarding.enabled = true)
    (proxy : forwarding.isProxy peer.ip.toText = true) (listed : forwarding.entries request ≠ []) :
    let entries := forwarding.entries request
    let place := forwarding.clientPlace entries
    ∃ entry, entries[place]? = some entry ∧
      forwarding.resolution peer request = ofPassage peer
        ⟨entry, (entries.drop place).filter forwarding.isRecorded, entries.take place⟩ := by
  obtain ⟨entry, here, walked⟩ := descend_reverse forwarding listed
  exact ⟨entry, here, by rw [resolution_of_proxy enabled proxy, walked]⟩

theorem resolveRequest_of_ok {resolution : Resolution}
    (resolved : forwarding.resolution peer request = .ok resolution) :
    forwarding.resolveRequest peer request =
      (.ok resolution.client, forwarding.asFromClient peer resolution request) := by
  unfold resolveRequest
  rw [resolved]

theorem resolveRequest_of_error {error : ForwardingError}
    (refused : forwarding.resolution peer request = .error error) :
    forwarding.resolveRequest peer request = (.error error, request) := by
  unfold resolveRequest
  rw [refused]

/-! ### Headers of the request passed on -/

/-- The value of a header that lists entries; without entries the header is not there. -/
def listing? (entries : List String) : Option String :=
  if entries.isEmpty then none else some (Text.joinComma entries)

/-- Setting a header to a list leaves every other header alone. -/
theorem find?_listHeader_of_ne {name other : String} (different : other ≠ Text.lowerAscii name)
    (listed : List String) (headers : Table String) :
    (listHeader name listed headers).find? other = headers.find? other := by
  unfold listHeader
  cases listed with
  | nil => exact (Table.find?_erase ..).trans (if_neg different)
  | cons entry rest => exact (Table.find?_put ..).trans (if_neg different)

/-- The headers of a request that is passed on for another client than its peer. -/
theorem find?_asFromClient {resolution : Resolution} (other : resolution.client ≠ peer)
    (apart : Text.lowerAscii forwarding.remoteHeader ≠ Text.lowerAscii forwarding.proxiesHeader)
    (name : String) :
    (forwarding.asFromClient peer resolution request).headers.find? name =
      if name = Text.lowerAscii forwarding.remoteHeader then listing? resolution.remaining
      else if name = Text.lowerAscii forwarding.proxiesHeader then listing? resolution.trusted
      else request.headers.find? name := by
  simp only [asFromClient, if_neg other]
  by_cases remote : name = Text.lowerAscii forwarding.remoteHeader
  · rw [if_pos remote, find?_listHeader_of_ne (remote ▸ apart), remote, find?_listHeader]
    rfl
  · rw [if_neg remote]
    by_cases proxies : name = Text.lowerAscii forwarding.proxiesHeader
    · rw [if_pos proxies, proxies, find?_listHeader]
      rfl
    · rw [if_neg proxies, find?_listHeader_of_ne proxies, find?_listHeader_of_ne remote]

/-- **What becomes of a request.** Let the headers that list addresses and record proxies have
different names. Without forwarding, from a peer that is no proxy, or without entries, the request
is passed on with its peer as the client. From a proxy, the entry at the place of the client
decides. If it is no address, the request is refused and stays as it is. Otherwise its address, with
the port of the peer, is the client. If the client is not the peer, the entries before that place
are left of the list, the trusted proxies from that place on are recorded, and no other header
changes; if it is the peer, no header changes at all. -/
theorem resolveRequest_of_place (forwarding : Forwarding)
    (apart : Text.lowerAscii forwarding.remoteHeader ≠ Text.lowerAscii forwarding.proxiesHeader)
    (peer : SocketAddress) (request : Request) :
    let entries := forwarding.entries request
    let place := forwarding.clientPlace entries
    ((forwarding.enabled = false ∨ forwarding.isProxy peer.ip.toText = false ∨ entries = []) →
      forwarding.resolveRequest peer request = (.ok peer, { request with client := some peer })) ∧
    (forwarding.enabled = true → forwarding.isProxy peer.ip.toText = true → entries ≠ [] →
      ∃ entry, entries[place]? = some entry ∧
        (address? entry = none → forwarding.resolveRequest peer request =
          (.error (.addressUnresolvable entry), request)) ∧
        ∀ ip, address? entry = some ip →
          let client : SocketAddress := ⟨ip, peer.port, 0⟩
          ∃ headers, forwarding.resolveRequest peer request =
              (.ok client, { request with headers := headers, client := some client }) ∧
            (client = peer → headers = request.headers) ∧
            (client ≠ peer → ∀ name, headers.find? name =
              if name = Text.lowerAscii forwarding.remoteHeader then listing? (entries.take place)
              else if name = Text.lowerAscii forwarding.proxiesHeader then
                listing? ((entries.drop place).filter forwarding.isRecorded)
              else request.headers.find? name)) := by
  intro entries place
  constructor
  · intro direct
    have resolved : forwarding.resolution peer request = .ok (unresolved peer) := by
      rcases direct with disabled | client | unlisted
      · exact resolution_of_no_proxy (.inl disabled) request
      · exact resolution_of_no_proxy (.inr client) request
      · exact resolution_of_no_entries unlisted
    rw [resolveRequest_of_ok resolved, asFromClient_unresolved]
    rfl
  · intro enabled proxy listed
    obtain ⟨entry, here, resolved⟩ := resolution_of_place enabled proxy listed
    refine ⟨entry, here, fun words => ?_, fun ip address => ?_⟩
    · exact resolveRequest_of_error (resolved.trans (ofPassage_of_no_address words))
    · intro client
      have accepted := resolved.trans (ofPassage_of_address address)
      refine ⟨_, resolveRequest_of_ok accepted, fun same => if_pos same, fun other name => ?_⟩
      exact find?_asFromClient other apart name

/-- A request that has passed an inner and a trusted proxy, and whose client lists an address. -/
def relayed : Request :=
  { Request.blank with headers := Table.ofList [
      ("x-forwarded-for", "192.0.2.1, 203.0.113.9,, 192.0.2.7 ,10.0.0.2"),
      ("x-forwarded-by", "10.0.0.9"), ("accept", "text/plain")] }

theorem resolveRequest_relayed :
    let proxy : SocketAddress := ⟨.v4 10 0 0 1, 4242, 0⟩
    let client : SocketAddress := ⟨.v4 203 0 113 9, 4242, 0⟩
    ∃ headers, outerGate.resolveRequest proxy relayed =
        (.ok client, { relayed with headers := headers, client := some client }) ∧
      headers.find? "x-forwarded-for" = some "192.0.2.1" ∧
      headers.find? "x-forwarded-by" = some "192.0.2.7" ∧
      headers.find? "accept" = some "text/plain" := by
  intro proxy client
  have apart :
      Text.lowerAscii outerGate.remoteHeader ≠ Text.lowerAscii outerGate.proxiesHeader := by
    decide
  have isProxy : outerGate.isProxy proxy.ip.toText = true := by decide +kernel
  have entries : outerGate.entries relayed =
      ["192.0.2.1", "203.0.113.9", "192.0.2.7", "10.0.0.2"] := by decide +kernel
  have place : outerGate.clientPlace (outerGate.entries relayed) = 1 := by decide +kernel
  obtain ⟨entry, here, _, answered⟩ := (resolveRequest_of_place outerGate apart proxy relayed).2 rfl
    isProxy (by rw [entries]; exact List.cons_ne_nil _ _)
  rw [place, entries] at here
  cases here
  obtain ⟨headers, resolved, _, changed⟩ := answered (.v4 203 0 113 9) (by decide +kernel)
  have found := changed (by decide)
  rw [place, entries] at found
  refine ⟨headers, resolved, ?_, ?_, ?_⟩
  · rw [found]; decide +kernel
  · rw [found]; decide +kernel
  · rw [found]; decide +kernel

end Forwarding

end Gatehouse
