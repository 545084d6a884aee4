/-
**Addresses that a client cannot choose.**

A proxy writes the address that it was called from behind the addresses that are listed already. A
list is walked from its end, and the walk stops at the first entry that is no proxy. So entries before
that one have no say in who the client is, whatever a client has written there: the address and the
trusted proxies are those of the lines that the proxies have added.

* `Forwarding.entriesOf`: the entries that the lines of a header list;
* `Forwarding.Ends`, `Forwarding.exists_descend`: where the walk ends and what it gives;
* `Forwarding.descend_append`: the walk does not look behind an entry that is no proxy;
* `Forwarding.resolution_of_later_lines`: what lines before such an entry add to a resolution;
* **`Forwarding.resolveRequest_of_later_lines`**: two requests with the same last lines.
-/

import Gatehouse.Proofs.Node.Lines

namespace Gatehouse

namespace Forwarding

open FrontDoor (linesNamed requestOf visibleText?)
open Text (Bytes)

variable {forwarding : Forwarding} {peer : SocketAddress}

/-! ### Entries -/

/-- The entries that the lines of a header list, the farthest first. A line without text lists
none. -/
def entriesOf (lines : List Bytes) : List String :=
  (lines.filterMap visibleText?).flatMap Text.commaList

theorem entriesOf_append (earlier later : List Bytes) :
    entriesOf (earlier ++ later) = entriesOf earlier ++ entriesOf later := by
  rw [entriesOf, List.filterMap_append, List.flatMap_append]
  rfl

/-- Lines with other bytes list no entry, whatever stands in them. -/
theorem entriesOf_of_hidden {lines : List Bytes}
    (hidden : ∀ line ∈ lines, line.all FrontDoor.isVisible = false) : entriesOf lines = [] := by
  have without : lines.filterMap visibleText? = [] :=
    List.filterMap_eq_nil_iff.mpr fun line member =>
      FrontDoor.visibleText?_eq_none_iff.mpr (hidden line member)
  rw [entriesOf, without, List.flatMap_nil]

/-- The entries of a request are those of the lines of the header that lists the addresses. -/
theorem entries_requestOf (request : Http.Request) :
    forwarding.entries (requestOf peer request) =
      entriesOf (linesNamed forwarding.remoteHeader request.headers) := by
  rw [entries, FrontDoor.header?_requestOf, FrontDoor.members_valueOf]
  rfl

/-! ### The walk -/

/-- Whether a passed entry is recorded as a trusted proxy. -/
def isRecorded (forwarding : Forwarding) (entry : String) : Bool :=
  !forwarding.isInternal entry && forwarding.isTrusted entry

/-- A walk has passed over some entries, all of them proxies, and ends before the farther ones, at an
entry that is no proxy or the last one. -/
structure Ends (forwarding : Forwarding) (passed farther : List String) (passage : Passage) :
    Prop where
  proxies : ∀ other ∈ passed, forwarding.isProxy other = true
  stops : forwarding.isProxy passage.entry = false ∨ farther = []
  trusted : passage.trusted = ((passed ++ [passage.entry]).filter forwarding.isRecorded).reverse
  remaining : passage.remaining = farther.reverse

theorem Ends.at_first {entry : String} {trusted farther : List String}
    (stops : forwarding.isProxy entry = false ∨ farther = [])
    (recorded : trusted = if forwarding.isRecorded entry then [entry] else []) :
    forwarding.Ends [] farther ⟨entry, trusted, farther.reverse⟩ where
  proxies := fun _ impossible => (List.not_mem_nil impossible).elim
  stops := stops
  trusted := by cases record : forwarding.isRecorded entry <;> simp [recorded, record]
  remaining := rfl

theorem Ends.behind_internal {passed farther : List String} {passage : Passage} {entry : String}
    (ends : forwarding.Ends passed farther passage) (internal : forwarding.isInternal entry = true) :
    forwarding.Ends (entry :: passed) farther passage where
  proxies := List.forall_mem_cons.mpr ⟨by rw [isProxy, internal, Bool.true_or], ends.proxies⟩
  stops := ends.stops
  trusted := by
    have skipped : ¬ forwarding.isRecorded entry = true := by simp [isRecorded, internal]
    rw [List.cons_append, List.filter_cons_of_neg skipped, ends.trusted]
  remaining := ends.remaining

theorem Ends.behind_trusted {passed farther : List String} {passage : Passage} {entry : String}
    (ends : forwarding.Ends passed farther passage)
    (recorded : forwarding.isRecorded entry = true) :
    forwarding.Ends (entry :: passed) farther
      { passage with trusted := passage.trusted ++ [entry] } where
  proxies := by
    obtain ⟨_, trusted⟩ := Bool.and_eq_true_iff.mp recorded
    exact List.forall_mem_cons.mpr ⟨by rw [isProxy, trusted, Bool.or_true], ends.proxies⟩
  stops := ends.stops
  trusted := by
    rw [List.cons_append, List.filter_cons_of_pos recorded, List.reverse_cons, ends.trusted]
  remaining := ends.remaining

/-- **The walk over entries** ends at one of them. -/
theorem exists_descend (forwarding : Forwarding) {near : List String} (listed : near ≠ []) :
    ∃ passage passed farther, forwarding.descend near = some passage ∧
      near = passed ++ passage.entry :: farther ∧ forwarding.Ends passed farther passage := by
  induction near with
  | nil => exact (listed rfl).elim
  | cons entry others ih =>
    rw [descend]
    by_cases internal : forwarding.isInternal entry = true
    · have skipped : forwarding.isRecorded entry = false := by simp [isRecorded, internal]
      rw [if_pos internal]
      cases others with
      | nil => exact ⟨_, [], [], rfl, rfl, .at_first (.inr rfl) (by simp [skipped])⟩
      | cons next rest =>
        obtain ⟨passage, passed, farther, walked, whole, ends⟩ := ih (List.cons_ne_nil next rest)
        rw [walked]
        exact ⟨passage, entry :: passed, farther, rfl, congrArg _ whole,
          ends.behind_internal internal⟩
    · rw [if_neg internal]
      by_cases trusted : forwarding.isTrusted entry = true
      · have recorded : forwarding.isRecorded entry = true := by simp [isRecorded, internal, trusted]
        rw [if_pos trusted]
        cases others with
        | nil => exact ⟨_, [], [], rfl, rfl, .at_first (.inr rfl) (by simp [recorded])⟩
        | cons next rest =>
          obtain ⟨passage, passed, farther, walked, whole, ends⟩ := ih (List.cons_ne_nil next rest)
          rw [walked]
          exact ⟨{ passage with trusted := passage.trusted ++ [entry] }, entry :: passed, farther,
            rfl, congrArg _ whole, ends.behind_trusted recorded⟩
      · have skipped : forwarding.isRecorded entry = false := by simp [isRecorded, trusted]
        have client : forwarding.isProxy entry = false := by simp [isProxy, internal, trusted]
        rw [if_neg trusted]
        exact ⟨_, [], others, rfl, rfl, .at_first (.inl client) (by simp [skipped])⟩

/-- Behind an entry that is no proxy the walk does not look at any other. -/
theorem descend_append {near : List String} (far : List String)
    (stop : ∃ entry ∈ near, forwarding.isProxy entry = false) :
    forwarding.descend (near ++ far) =
      (forwarding.descend near).map fun passage =>
        { passage with remaining := far.reverse ++ passage.remaining } := by
  induction near with
  | nil => obtain ⟨entry, impossible, _⟩ := stop; cases impossible
  | cons entry farther ih =>
    -- if the first entry is a proxy, the one where the walk stops is behind it
    have onward : forwarding.isProxy entry = true →
        ∃ passage, forwarding.descend farther = some passage ∧
          forwarding.descend (farther ++ far) =
            some { passage with remaining := far.reverse ++ passage.remaining } := by
      intro proxy
      obtain ⟨other, member, client⟩ := stop
      have inside : other ∈ farther := by
        rcases List.mem_cons.mp member with rfl | inside
        · rw [client] at proxy; cases proxy
        · exact inside
      obtain ⟨passage, _, _, walked, _⟩ := exists_descend forwarding (List.ne_nil_of_mem inside)
      exact ⟨passage, walked, by rw [ih ⟨other, inside, client⟩, walked]; rfl⟩
    rw [List.cons_append, descend, descend]
    by_cases internal : forwarding.isInternal entry = true
    · obtain ⟨passage, walked, further⟩ := onward (by rw [isProxy, internal, Bool.true_or])
      rw [if_pos internal, if_pos internal, walked, further]
      rfl
    · rw [if_neg internal, if_neg internal]
      by_cases trusted : forwarding.isTrusted entry = true
      · obtain ⟨passage, walked, further⟩ := onward (by rw [isProxy, trusted, Bool.or_true])
        rw [if_pos trusted, if_pos trusted, walked, further]
        rfl
      · rw [if_neg trusted, if_neg trusted, List.reverse_append]
        rfl

/-! ### Resolutions -/

/-- Without forwarding, or from a peer that is no proxy, the peer is the client. -/
theorem resolution_of_no_proxy
    (direct : forwarding.enabled = false ∨ forwarding.isProxy peer.ip.toText = false)
    (request : Request) : forwarding.resolution peer request = .ok (unresolved peer) := by
  unfold resolution
  refine if_pos ?_
  rcases direct with disabled | client
  · rw [disabled, Bool.not_false, Bool.true_or]
  · rw [client, Bool.not_false, Bool.or_true]

/-- From a proxy, the entries of a request say who the client is. -/
theorem resolution_of_proxy (enabled : forwarding.enabled = true)
    (proxy : forwarding.isProxy peer.ip.toText = true) (request : Request) :
    forwarding.resolution peer request =
      match forwarding.descend (forwarding.entries request).reverse with
      | none => .ok (unresolved peer)
      | some passage => ofPassage peer passage := by
  unfold resolution
  exact if_neg (by rw [enabled, proxy]; decide)

/-- A request that lists no entry comes from its peer. -/
theorem resolution_of_no_entries {request : Request} (unlisted : forwarding.entries request = []) :
    forwarding.resolution peer request = .ok (unresolved peer) := by
  unfold resolution
  rw [unlisted]
  split <;> rfl

theorem ofPassage_of_address {passage : Passage} {ip : IpAddress}
    (address : address? passage.entry = some ip) :
    ofPassage peer passage = .ok ⟨⟨ip, peer.port, 0⟩, passage.trusted, passage.remaining⟩ := by
  unfold ofPassage
  rw [address]

theorem ofPassage_of_no_address {passage : Passage} (words : address? passage.entry = none) :
    ofPassage peer passage = .error (.addressUnresolvable passage.entry) := by
  unfold ofPassage
  rw [words]

theorem ofPassage_append_remaining (far : List String) (passage : Passage) :
    ofPassage peer { passage with remaining := far ++ passage.remaining } =
      (ofPassage peer passage).map fun resolution =>
        { resolution with remaining := far ++ resolution.remaining } := by
  unfold ofPassage
  cases address? passage.entry <;> rfl

/-- Lines before an entry that is no proxy only add to the entries that remain. -/
theorem resolution_of_later_lines {first second : Http.Request} {earlier later : List Bytes}
    (enabled : forwarding.enabled = true) (proxy : forwarding.isProxy peer.ip.toText = true)
    (whole : linesNamed forwarding.remoteHeader first.headers = earlier ++ later)
    (last : linesNamed forwarding.remoteHeader second.headers = later)
    (stop : ∃ entry ∈ entriesOf later, forwarding.isProxy entry = false) :
    forwarding.resolution peer (requestOf peer first) =
      (forwarding.resolution peer (requestOf peer second)).map fun resolution =>
        { resolution with remaining := entriesOf earlier ++ resolution.remaining } := by
  obtain ⟨entry, member, client⟩ := stop
  have near : ∃ entry ∈ (entriesOf later).reverse, forwarding.isProxy entry = false :=
    ⟨entry, List.mem_reverse.mpr member, client⟩
  obtain ⟨passage, _, _, walked, _⟩ :=
    exists_descend forwarding (List.ne_nil_of_mem (List.mem_reverse.mpr member))
  rw [resolution_of_proxy enabled proxy, resolution_of_proxy enabled proxy, entries_requestOf,
    entries_requestOf, whole, last, entriesOf_append, List.reverse_append, descend_append _ near,
    walked, List.reverse_reverse]
  exact ofPassage_append_remaining _ passage

/-! ### Requests that are passed on -/

theorem fst_resolveRequest (request : Request) :
    (forwarding.resolveRequest peer request).1 = forwarding.resolve peer request := by
  unfold resolveRequest resolve
  cases forwarding.resolution peer request <;> rfl

theorem asFromClient_unresolved (request : Request) :
    forwarding.asFromClient peer (unresolved peer) request =
      { request with client := some peer } := by
  unfold asFromClient
  rw [if_pos (show (unresolved peer).client = peer from rfl)]
  rfl

theorem find?_listHeader (name : String) (listed : List String) (headers : Table String) :
    (listHeader name listed headers).find? (Text.lowerAscii name) =
      if listed.isEmpty then none else some (Text.joinComma listed) := by
  unfold listHeader
  cases listed with
  | nil => exact (Table.find?_erase ..).trans (if_pos rfl)
  | cons entry rest => exact (Table.find?_put ..).trans (if_pos rfl)

/-- A request that is passed on for another client than the peer records the trusted proxies. -/
theorem header?_proxies_of_client {resolution : Resolution} {request : Request}
    (resolved : forwarding.resolution peer request = .ok resolution)
    (other : resolution.client ≠ peer) :
    (forwarding.resolveRequest peer request).2.header? forwarding.proxiesHeader =
      if resolution.trusted.isEmpty then none else some (Text.joinComma resolution.trusted) := by
  unfold resolveRequest
  rw [resolved]
  simp only [asFromClient, Request.header?, if_neg other, find?_listHeader]

/-- **A client cannot choose its address.** Take two requests from a proxy. The lines of the second
that list addresses are also the last such lines of the first, and they list an entry that is no
proxy. Then the requests have the same client or the same error, and the same trusted proxies, which
are recorded in the same header. From any other peer, or without forwarding, the peer is the client
of every request. -/
theorem resolveRequest_of_later_lines (forwarding : Forwarding) (peer : SocketAddress) :
    (forwarding.enabled = true → forwarding.isProxy peer.ip.toText = true →
      ∀ (first second : Http.Request) (earlier later : List Bytes),
        linesNamed forwarding.remoteHeader first.headers = earlier ++ later →
        linesNamed forwarding.remoteHeader second.headers = later →
        (∃ entry ∈ entriesOf later, forwarding.isProxy entry = false) →
        (forwarding.resolveRequest peer (requestOf peer first)).1 =
          (forwarding.resolveRequest peer (requestOf peer second)).1 ∧
        (forwarding.resolution peer (requestOf peer first)).map (·.trusted) =
          (forwarding.resolution peer (requestOf peer second)).map (·.trusted) ∧
        ∀ client, client ≠ peer →
          (forwarding.resolveRequest peer (requestOf peer first)).1 = .ok client →
          (forwarding.resolveRequest peer (requestOf peer first)).2.header?
              forwarding.proxiesHeader =
            (forwarding.resolveRequest peer (requestOf peer second)).2.header?
              forwarding.proxiesHeader) ∧
    (forwarding.enabled = false ∨ forwarding.isProxy peer.ip.toText = false →
      ∀ request, (forwarding.resolveRequest peer request).1 = .ok peer) := by
  constructor
  · intro enabled proxy first second earlier later whole last stop
    have same := resolution_of_later_lines enabled proxy whole last stop
    refine ⟨?_, ?_, fun client other resolved => ?_⟩
    · rw [fst_resolveRequest, fst_resolveRequest, resolve, resolve, same]
      cases forwarding.resolution peer (requestOf peer second) <;> rfl
    · rw [same]
      cases forwarding.resolution peer (requestOf peer second) <;> rfl
    · rw [fst_resolveRequest, resolve] at resolved
      cases found : forwarding.resolution peer (requestOf peer second) with
      | error error =>
        rw [same, found] at resolved
        cases resolved
      | ok resolution =>
        rw [found] at same
        rw [same] at resolved
        cases resolved
        rw [header?_proxies_of_client same other, header?_proxies_of_client found other]
  · intro direct request
    rw [fst_resolveRequest, resolve, resolution_of_no_proxy direct]
    rfl

/-- A gate in a network of its own, behind a trusted proxy. -/
def outerGate : Forwarding :=
  { standard with
    internal := (wholeText "10[.].*").toOption.getD .empty
    trusted := (wholeText "192[.]0[.]2[.].*").toOption }

/-- A request that has passed the trusted proxy. -/
def honest : Http.Request where
  method := "GET"
  target := "/bridge"
  headers := [("X-Forwarded-For", Text.encode "203.0.113.9, 192.0.2.7")]

/-- The same request with lines that its client has written before. -/
def boastful : Http.Request :=
  { honest with headers := [
      ("x-forwarded-for", Text.encode "10.0.0.2,, 192.0.2.8"), ("X-FORWARDED-FOR", [0xFF])] ++
    honest.headers }

theorem resolveRequest_boastful :
    let proxy : SocketAddress := ⟨.v4 10 0 0 1, 4242, 0⟩
    let client : SocketAddress := ⟨.v4 203 0 113 9, 4242, 0⟩
    (outerGate.resolveRequest proxy (requestOf proxy boastful)).1 = .ok client ∧
    (outerGate.resolveRequest proxy (requestOf proxy boastful)).2.header? "x-forwarded-by" =
      some "192.0.2.7" ∧
    (outerGate.resolveRequest client (requestOf client boastful)).1 = .ok client := by
  intro proxy client
  have isProxy : outerGate.isProxy proxy.ip.toText = true := by decide +kernel
  have walked : outerGate.descend (outerGate.entries (requestOf proxy honest)).reverse =
      some ⟨"203.0.113.9", ["192.0.2.7"], []⟩ := by decide +kernel
  have address : address? "203.0.113.9" = some (.v4 203 0 113 9) := by decide +kernel
  have resolved : outerGate.resolution proxy (requestOf proxy honest) =
      .ok ⟨client, ["192.0.2.7"], []⟩ := by
    rw [resolution_of_proxy rfl isProxy, walked]
    exact ofPassage_of_address address
  have other : client ≠ proxy := by decide
  obtain ⟨sameClient, _, sameRecord⟩ :=
    (resolveRequest_of_later_lines outerGate proxy).1 rfl isProxy boastful honest
      [Text.encode "10.0.0.2,, 192.0.2.8", [0xFF]] [Text.encode "203.0.113.9, 192.0.2.7"]
      (by decide +kernel) (by decide +kernel)
      ⟨"203.0.113.9", by decide +kernel, by decide +kernel⟩
  rw [fst_resolveRequest (requestOf proxy honest), resolve, resolved] at sameClient
  have recorded : (outerGate.resolveRequest proxy (requestOf proxy honest)).2.header?
      "x-forwarded-by" = some (Text.joinComma ["192.0.2.7"]) :=
    header?_proxies_of_client resolved other
  have joined : Text.joinComma ["192.0.2.7"] = "192.0.2.7" := by decide +kernel
  rw [joined] at recorded
  have direct := (resolveRequest_of_later_lines outerGate client).2 (.inr (by decide +kernel))
  exact ⟨sameClient, (sameRecord client other sameClient).trans recorded, direct _⟩

end Forwarding

end Gatehouse
