/-
**Addresses that are passed on.**

A proxy appends the address that it was called from to the list that it passes on: bare, as a socket
address, or in square brackets. Each of these forms is read as the address that it was made of, and
is one entry of the list, whatever stands before it. The walk over the list begins at this entry. It
goes on from there only if the entry is written as that of a proxy, and then says what it would have
said without the entry. So an address that was reported for one request is reported for the next one
too, as long as all its forms are judged as its bare text is.

* `Forwarding.formsOf`: the forms of an address; `Forwarding.address?_form`: they are read back;
* `Forwarding.commaList_appendEntry`: an appended form is the last entry of a list;
* `Forwarding.resolve_of_passedOn_iff`: when an appended address is the client;
* **`Forwarding.resolve_appended_form`**: an address that was reported resolves to itself;
* `Forwarding.appended_behind_port`: a reported address that does not.
-/

import Gatehouse.Proofs.Forwarding.Proxies
import Gatehouse.Proofs.Network.Addresses

namespace Gatehouse

namespace Forwarding

open Network

variable {forwarding : Forwarding} {peer : SocketAddress} {request : Request}

/-! ### Forms -/

/-- The forms in which a proxy may list an address: bare, with the port of the caller, and in square
brackets. -/
def formsOf (ip : IpAddress) (port : UInt16) : List String :=
  [ip.toText, SocketAddress.toText ⟨ip, port, 0⟩, "[" ++ ip.toText ++ "]"]

theorem toList_bracketed (text : String) :
    ("[" ++ text ++ "]").toList = '[' :: (text.toList ++ [']']) := by
  rw [String.toList_append, String.toList_append]
  rfl

theorem eq_ofList {text : String} {list : List Char} (same : text.toList = list) :
    text = String.ofList list := by
  rw [← same, String.ofList_toList]

/-- The text of a socket address is no address. -/
theorem parse?_socket (ip : IpAddress) (port : UInt16) :
    IpAddress.parse? (SocketAddress.toText ⟨ip, port, 0⟩) = none := by
  cases ip with
  | v4 a b c d =>
    have colon : NoDigit 10 (':' :: Nat.toDigits 10 port.toNat) := noDigit_cons (by decide)
    rw [IpAddress.parse?, SocketAddress.toList_v4, version4?_toText a b c d colon]
    rfl
  | v6 groups => rw [eq_ofList (SocketAddress.toList_v6 groups port 0), IpAddress.parse?_bracket]

/-- An address in square brackets is no socket address: it has no port. -/
theorem parse?_bracketed (ip : IpAddress) :
    SocketAddress.parse? ("[" ++ ip.toText ++ "]") = none := by
  have four : ∀ text, version4? ('[' :: text) = none := by
    intro text
    rw [version4?, dotted?_of_noDigit (noDigit_cons (by decide)) (by simp)]
    rfl
  have six : version6? (ip.toText.toList ++ [']']) = none ∨
      version6? (ip.toText.toList ++ [']']) = some (ip, [']']) := by
    cases ip with
    | v4 a b c d => exact .inl (version6?_of_v4 a b c d (noDigit_cons (by decide)))
    | v6 groups =>
      exact .inr (version6?_toText groups (ends_cons (by decide) (by decide) (by decide)))
  rw [SocketAddress.parse?, toList_bracketed]
  simp only [four, expect?, if_true, Option.bind_eq_bind, Option.bind_none, Option.bind_some]
  obtain absent | found := six
  · rw [absent]
    rfl
  · rw [found]
    rfl

/-- **Every form of an address is read back.** -/
theorem address?_form (ip : IpAddress) (port : UInt16) :
    ∀ form ∈ formsOf ip port, address? form = some ip := by
  simp only [formsOf, List.forall_mem_cons]
  refine ⟨?_, ?_, ?_, fun _ absent => (List.not_mem_nil absent).elim⟩
  · rw [address?, IpAddress.parse?_toText]
    rfl
  · rw [address?, parse?_socket, SocketAddress.parse?_toText _ fun _ _ _ _ _ => rfl]
    rfl
  · have inner : unbracketed? ('[' :: (ip.toText.toList ++ [']'])) = some ip.toText.toList := by
      rw [unbracketed?, List.getLast?_concat, if_pos rfl, List.dropLast_concat]
    rw [address?, parse?_bracketed, eq_ofList (toList_bracketed ip.toText),
      IpAddress.parse?_bracket, String.toList_ofList, inner]
    simp only [Option.orElse_none, Option.map_none, Option.bind_some, String.ofList_toList,
      IpAddress.parse?_toText]

/-! ### Entries -/

/-- The characters of addresses. -/
def isAddressChar (c : Char) : Bool :=
  (digit? 16 c).isSome || c = ':' || c = '.' || c = '[' || c = ']'

/-- No character of an address is a comma or a blank. -/
theorem plain_of_isAddressChar {c : Char} (inside : isAddressChar c = true) :
    c ≠ ',' ∧ Text.isBlank c = false := by
  have small : c.toNat < 128 := by
    simp only [isAddressChar, Bool.or_eq_true, decide_eq_true_eq] at inside
    obtain (((digit | rfl) | rfl) | rfl) | rfl := inside
    case inl =>
      refine Nat.lt_of_not_le fun large => ?_
      rw [digit?_of_large large] at digit
      exact Bool.false_ne_true digit
    all_goals decide
  have each : ∀ code < 128, isAddressChar (Char.ofNat code) = true →
      Char.ofNat code ≠ ',' ∧ Text.isBlank (Char.ofNat code) = false := by decide +kernel
  have same := each c.toNat small
  rw [Char.ofNat_toNat] at same
  exact same inside

theorem isAddressChar_of_digit {base : Nat} (known : base = 10 ∨ base = 16) (n : Nat) :
    ∀ c ∈ Nat.toDigits base n, isAddressChar c = true := by
  intro c member
  have hex : (digit? 16 c).isSome = true := by
    obtain rfl | rfl := known
    · have decimal := isSome_digit? (by decide) (by decide) n c member
      refine Option.isSome_iff_ne_none.mpr fun absent => ?_
      rw [digit?_ten_of_sixteen absent] at decimal
      exact Bool.false_ne_true decimal
    · exact isSome_digit? (by decide) (by decide) n c member
  simp only [isAddressChar, hex, Bool.true_or]

theorem isAddressChar_dotted (a b c d : UInt8) :
    ∀ char ∈ (IpAddress.dotted a b c d).toList, isAddressChar char = true := by
  have digits := fun byte : UInt8 => isAddressChar_of_digit (.inl rfl) byte.toNat
  rw [toList_dotted]
  simp only [List.forall_mem_append, List.forall_mem_cons]
  exact ⟨digits a, by decide, digits b, by decide, digits c, by decide, digits d⟩

theorem isAddressChar_groupsText (groups : List UInt16) :
    ∀ c ∈ (IpAddress.groupsText groups).toList, isAddressChar c = true := by
  have digits := fun group : UInt16 => isAddressChar_of_digit (.inr rfl) group.toNat
  cases groups with
  | nil => exact fun _ absent => (List.not_mem_nil absent).elim
  | cons group groups =>
    rw [toList_groupsText_cons, List.forall_mem_append]
    refine ⟨digits group, fun c member => ?_⟩
    obtain ⟨next, _, inside⟩ := List.mem_flatMap.mp member
    exact (List.forall_mem_cons (p := (isAddressChar · = true))).mpr ⟨by decide, digits next⟩ c inside

theorem isAddressChar_toText (ip : IpAddress) :
    ∀ c ∈ ip.toText.toList, isAddressChar c = true := by
  unfold IpAddress.toText
  split
  case h_1 a b c d => exact isAddressChar_dotted a b c d
  case h_2 =>
    split
    case h_1 =>
      rw [String.toList_append, List.forall_mem_append]
      exact ⟨List.all_eq_true.mp (by decide), isAddressChar_dotted _ _ _ _⟩
    case h_2 =>
      unfold IpAddress.compressed
      dsimp only
      split
      case isTrue =>
        rw [String.toList_append, String.toList_append, List.forall_mem_append,
          List.forall_mem_append]
        exact ⟨⟨isAddressChar_groupsText _, List.all_eq_true.mp (by decide)⟩,
          isAddressChar_groupsText _⟩
      case isFalse => exact isAddressChar_groupsText _

theorem isAddressChar_form (ip : IpAddress) (port : UInt16) :
    ∀ form ∈ formsOf ip port, ∀ c ∈ form.toList, isAddressChar c = true := by
  have bare := isAddressChar_toText ip
  have digits := isAddressChar_of_digit (.inl rfl) port.toNat
  simp only [formsOf, List.forall_mem_cons]
  refine ⟨bare, ?_, ?_, fun _ absent => (List.not_mem_nil absent).elim⟩
  · cases ip with
    | v4 a b c d =>
      rw [SocketAddress.toList_v4, List.forall_mem_append, List.forall_mem_cons]
      exact ⟨bare, by decide, digits⟩
    | v6 groups =>
      rw [SocketAddress.toList_v6, List.forall_mem_cons, List.forall_mem_append]
      exact ⟨by decide, bare, List.forall_mem_cons.mpr
        ⟨by decide, List.forall_mem_cons.mpr ⟨by decide, digits⟩⟩⟩
  · rw [toList_bracketed, List.forall_mem_cons, List.forall_mem_append]
    exact ⟨by decide, bare, List.all_eq_true.mp (by decide)⟩

/-- A list with an entry behind the others, if there are any. -/
def appendEntry (listed : Option String) (entry : String) : String :=
  match listed with
  | some listed => listed ++ ", " ++ entry
  | none => entry

theorem commaList_of_plain {entry : String} (given : entry ≠ "")
    (plain : ∀ c ∈ entry.toList, isAddressChar c = true) : Text.commaList entry = [entry] := by
  have absent : ',' ∉ entry.toList := fun member => (plain_of_isAddressChar (plain _ member)).1 rfl
  have trimmed : Text.Trimmed entry.toList :=
    ⟨fun c first => (plain_of_isAddressChar (plain c (List.mem_of_mem_head? first))).2,
      fun c last => (plain_of_isAddressChar (plain c (List.mem_of_mem_getLast? last))).2⟩
  have nonempty : entry.toList.isEmpty = false :=
    List.isEmpty_eq_false_iff.mpr fun empty => given (String.toList_eq_nil_iff.mp empty)
  rw [Text.commaList, Text.splitAll_eq_singleton absent, List.map_singleton,
    Text.trim_of_trimmed trimmed, List.filterMap_cons, nonempty, List.filterMap_nil]
  simp only [Bool.false_eq_true, if_false, String.ofList_toList]

/-- **An appended form is the last entry of a list.** -/
theorem commaList_appendEntry (listed : Option String) {ip : IpAddress} {port : UInt16}
    {form : String} (member : form ∈ formsOf ip port) :
    Text.commaList (appendEntry listed form) = (listed.map Text.commaList).getD [] ++ [form] := by
  have given : form ≠ "" := by
    rintro rfl
    exact nomatch address?_form ip port "" member
  have single := commaList_of_plain given (isAddressChar_form ip port form member)
  cases listed with
  | none => exact single
  | some listed =>
    rw [appendEntry, Text.commaList_append, single]
    rfl

/-- A request is passed on with an entry behind the addresses that the one before has left. -/
def PassedOn (forwarding : Forwarding) (left : Request) (entry : String) (next : Request) : Prop :=
  next.header? forwarding.remoteHeader =
    some (appendEntry (left.header? forwarding.remoteHeader) entry)

/-! ### The client -/

/-- The walk stops at the nearest entry, if that is no proxy or the only one. -/
theorem descend_first {entry : String} {farther : List String}
    (stops : forwarding.isProxy entry = false ∨ farther = []) :
    ∃ passage, forwarding.descend (entry :: farther) = some passage ∧ passage.entry = entry := by
  rw [descend]
  obtain client | rfl := stops
  · obtain ⟨outside, unknown⟩ := Bool.or_eq_false_iff.mp client
    rw [outside, unknown]
    exact ⟨_, rfl, rfl⟩
  · split
    case isTrue => exact ⟨_, rfl, rfl⟩
    case isFalse => split <;> exact ⟨_, rfl, rfl⟩

/-- Over a proxy the walk goes on, and ends where it would have ended without it. -/
theorem descend_of_proxy {entry : String} {farther : List String}
    (proxy : forwarding.isProxy entry = true) (listed : farther ≠ []) :
    ∃ passage further, forwarding.descend farther = some passage ∧
      forwarding.descend (entry :: farther) = some further ∧ further.entry = passage.entry := by
  obtain ⟨passage, _, _, walked, _⟩ := exists_descend forwarding listed
  rw [descend, walked]
  by_cases internal : forwarding.isInternal entry = true
  · exact ⟨passage, passage, rfl, by rw [if_pos internal]; rfl, rfl⟩
  · have trusted : forwarding.isTrusted entry = true :=
      ((Bool.or_eq_true _ _).mp proxy).resolve_left internal
    exact ⟨passage, { passage with trusted := passage.trusted ++ [entry] }, rfl,
      by rw [if_neg internal, if_pos trusted], rfl⟩

/-- From a proxy, the entry at which the walk ends says who the client is. -/
theorem resolve_of_walk (enabled : forwarding.enabled = true)
    (proxy : forwarding.isProxy peer.ip.toText = true) {passage : Passage}
    (walked : forwarding.descend (forwarding.entries request).reverse = some passage) :
    forwarding.resolve peer request =
      match address? passage.entry with
      | some ip => .ok ⟨ip, peer.port, 0⟩
      | none => .error (.addressUnresolvable passage.entry) := by
  rw [resolve, resolution_of_proxy enabled proxy, walked]
  dsimp only
  cases address : address? passage.entry with
  | some ip => rw [ofPassage_of_address address]; rfl
  | none => rw [ofPassage_of_no_address address]; rfl

section Appended

variable {ip : IpAddress} {port : UInt16} {form : String} {left next : Request}
  (member : form ∈ formsOf ip port) (passed : forwarding.PassedOn left form next)

include member passed

theorem entries_of_passedOn : forwarding.entries next = forwarding.entries left ++ [form] := by
  rw [entries, passed, Option.map_some, Option.getD_some, commaList_appendEntry _ member]
  rfl

/-- **An appended address is the client** exactly if its form is not taken for a proxy, or nothing
else is listed, or what else is listed says the same. -/
theorem resolve_of_passedOn_iff (enabled : forwarding.enabled = true)
    (proxy : forwarding.isProxy peer.ip.toText = true) :
    forwarding.resolve peer next = .ok ⟨ip, peer.port, 0⟩ ↔
      forwarding.isProxy form = false ∨ forwarding.entries left = [] ∨
        forwarding.resolve peer left = .ok ⟨ip, peer.port, 0⟩ := by
  have nearest : (forwarding.entries next).reverse = form :: (forwarding.entries left).reverse := by
    rw [entries_of_passedOn member passed, List.reverse_append]
    rfl
  have stopped : forwarding.isProxy form = false ∨ forwarding.entries left = [] →
      forwarding.resolve peer next = .ok ⟨ip, peer.port, 0⟩ := by
    intro stops
    have halts : ∃ passage, forwarding.descend (form :: (forwarding.entries left).reverse) =
        some passage ∧ passage.entry = form :=
      descend_first (stops.imp_right List.reverse_eq_nil_iff.mpr)
    obtain ⟨passage, walked, rfl⟩ := halts
    rw [resolve_of_walk enabled proxy (nearest ▸ walked), address?_form ip port _ member]
  by_cases stops : forwarding.isProxy form = false ∨ forwarding.entries left = []
  · exact iff_of_true (stopped stops) (or_assoc.mp (.inl stops))
  · obtain ⟨caught, listed⟩ := not_or.mp stops
    obtain ⟨passage, further, walked, onward, same⟩ :=
      descend_of_proxy ((Bool.not_eq_false _).mp caught) (mt List.reverse_eq_nil_iff.mp listed)
    have unchanged : forwarding.resolve peer next = forwarding.resolve peer left := by
      rw [resolve_of_walk enabled proxy (nearest ▸ onward), resolve_of_walk enabled proxy walked,
        same]
    rw [unchanged, or_iff_right caught, or_iff_right listed]

end Appended

/-- Where no entry stands before that of another client than the peer, none is left. -/
theorem entries_of_first {resolution : Resolution} (other : resolution.client ≠ peer)
    (apart : Text.lowerAscii forwarding.remoteHeader ≠ Text.lowerAscii forwarding.proxiesHeader)
    (first : resolution.remaining = []) :
    forwarding.entries (forwarding.asFromClient peer resolution request) = [] := by
  have removed : (forwarding.asFromClient peer resolution request).headers.find?
      (Text.lowerAscii forwarding.remoteHeader) = none := by
    rw [find?_asFromClient other apart, if_pos rfl, first]
    rfl
  rw [entries, Request.header?, removed]
  rfl

/-- What a reported address leaves behind, if all its forms are judged as its bare text is: either the
form that is appended is not taken for a proxy, or nothing is listed any more, or what is listed leads
to the address again. -/
theorem left_of_reported {client proxy : SocketAddress} {left : Request} {form : String}
    (reported : forwarding.resolveRequest peer request = (.ok client, left))
    (enabled : forwarding.enabled = true) (relayed : forwarding.isProxy proxy.ip.toText = true)
    (apart : Text.lowerAscii forwarding.remoteHeader ≠ Text.lowerAscii forwarding.proxiesHeader)
    (appended : forwarding.isProxy form = forwarding.isProxy client.ip.toText)
    (alike : ∀ entry ∈ forwarding.entries request, address? entry = some client.ip →
      forwarding.isProxy entry = forwarding.isProxy client.ip.toText) :
    forwarding.isProxy form = false ∨ forwarding.entries left = [] ∨
      forwarding.resolve proxy left = .ok ⟨client.ip, proxy.port, 0⟩ := by
  by_cases direct : forwarding.isProxy peer.ip.toText = false
  · rw [resolveRequest_of_ok (resolution_of_no_proxy (.inr direct) request)] at reported
    cases reported
    exact .inl (appended.trans direct)
  by_cases listed : forwarding.entries request = []
  · rw [resolveRequest_of_ok (resolution_of_no_entries listed), asFromClient_unresolved] at reported
    cases reported
    exact .inr (.inl listed)
  obtain ⟨farther, entry, nearer, split, _, stops, walked⟩ := exists_split forwarding listed
  have resolved := resolution_of_proxy enabled ((Bool.not_eq_false _).mp direct) request
  rw [walked] at resolved
  cases address : address? entry with
  | none =>
    rw [resolveRequest_of_error (resolved.trans (ofPassage_of_no_address address))] at reported
    cases reported
  | some ip =>
    rw [resolveRequest_of_ok (resolved.trans (ofPassage_of_address address))] at reported
    cases reported
    obtain outside | rfl := stops
    · have member : entry ∈ forwarding.entries request :=
        split ▸ List.mem_append_right _ List.mem_cons_self
      exact .inl (appended.trans ((alike entry member address).symm.trans outside))
    -- no entry is farther: the list is removed, or stays as it is if the client is the peer
    · by_cases same : (⟨ip, peer.port, 0⟩ : SocketAddress) = peer
      · rw [asFromClient, if_pos same]
        exact .inr (.inr ((resolve_of_walk enabled relayed walked).trans (by rw [address])))
      · exact .inr (.inl (entries_of_first same apart rfl))

/-- **A reported address resolves to itself.** Every form of an address, bare, as a socket address
with any port, or in square brackets, is read as this address. Let a resolver report the address of a
client, and let the next proxy append any form of it to the list that is left. Then it is the client of
the next request as well, exactly if its form is not taken for a proxy, or nothing else is left in the
list, or what is left says so. This holds whenever the resolver judges all forms of the address as it
judges its bare text, and the headers have different names or the client is no proxy. -/
theorem resolve_appended_form (forwarding : Forwarding) :
    (∀ (ip : IpAddress) (port : UInt16), ∀ form ∈ formsOf ip port, address? form = some ip) ∧
    ∀ (peer : SocketAddress) (request : Request) (client : SocketAddress) (left : Request),
      forwarding.resolveRequest peer request = (.ok client, left) →
      ∀ (port : UInt16), ∀ form ∈ formsOf client.ip port, ∀ (proxy : SocketAddress) (next : Request),
        forwarding.enabled = true → forwarding.isProxy proxy.ip.toText = true →
        forwarding.PassedOn left form next →
        (forwarding.resolve proxy next = .ok ⟨client.ip, proxy.port, 0⟩ ↔
          forwarding.isProxy form = false ∨ forwarding.entries left = [] ∨
            forwarding.resolve proxy left = .ok ⟨client.ip, proxy.port, 0⟩) ∧
        ((∀ entry ∈ form :: forwarding.entries request, address? entry = some client.ip →
            forwarding.isProxy entry = forwarding.isProxy client.ip.toText) →
          Text.lowerAscii forwarding.remoteHeader ≠ Text.lowerAscii forwarding.proxiesHeader ∨
            forwarding.isProxy client.ip.toText = false →
          forwarding.resolve proxy next = .ok ⟨client.ip, proxy.port, 0⟩) := by
  refine ⟨address?_form, fun peer request client left reported port form member proxy next enabled
    relayed passed => ?_⟩
  have exact := resolve_of_passedOn_iff member passed enabled relayed
  refine ⟨exact, fun alike named => exact.mpr ?_⟩
  obtain ⟨here, others⟩ := List.forall_mem_cons.mp alike
  have appended := here (address?_form _ _ _ member)
  obtain apart | outside := named
  · exact left_of_reported reported enabled relayed apart appended others
  · exact .inl (appended.trans outside)

/-- A version six address with a long run of zeros, which a proxy lists with its port and the next one
in square brackets. -/
theorem resolve_appended_documentation :
    let client : SocketAddress := ⟨.v6 #v[0x2001, 0xdb8, 0, 0, 0, 0, 0, 8], 4711, 0⟩
    let proxy : SocketAddress := ⟨.v4 10 0 0 1, 4711, 0⟩
    let request := listed "198.51.100.9, [2001:db8::8]:443, 192.0.2.7"
    let left := (outerGate.resolveRequest proxy request).2
    let next := listed "198.51.100.9, [2001:db8::8]"
    (outerGate.resolveRequest proxy request).1 = .ok client ∧
      "[2001:db8::8]" ∈ formsOf client.ip 443 ∧ outerGate.PassedOn left "[2001:db8::8]" next ∧
      outerGate.resolve proxy next = .ok client := by
  intro client proxy request left next
  have member : "[2001:db8::8]" ∈ formsOf client.ip 443 := by decide +kernel
  have reported : (outerGate.resolveRequest proxy request).1 = .ok client ∧
      outerGate.isProxy proxy.ip.toText = true := by decide +kernel
  have passed : outerGate.PassedOn left "[2001:db8::8]" next := by
    unfold PassedOn
    decide +kernel
  have alike : ∀ entry ∈ "[2001:db8::8]" :: outerGate.entries request,
      address? entry = some client.ip →
        outerGate.isProxy entry = outerGate.isProxy client.ip.toText := by decide +kernel
  obtain ⟨_, again⟩ := (resolve_appended_form outerGate).2 proxy request client left
    (Prod.ext reported.1 rfl) 443 _ member proxy next rfl reported.2 passed
  exact ⟨reported.1, member, passed, again alike (.inl (by decide))⟩

/-- A proxy that is listed with its port is reported, and the next proxy appends its address without
the port. This is passed over then, and the address before it is the client. -/
theorem appended_behind_port :
    let proxy : SocketAddress := ⟨.v4 10 0 0 1, 4711, 0⟩
    let request := listed "203.0.113.9, 10.0.0.2:8080"
    let left := (standard.resolveRequest proxy request).2
    let next := listed "203.0.113.9, 10.0.0.2"
    (standard.resolveRequest proxy request).1 = .ok ⟨.v4 10 0 0 2, 4711, 0⟩ ∧
    left.header? standard.remoteHeader = some "203.0.113.9" ∧
    "10.0.0.2" ∈ formsOf (.v4 10 0 0 2) 8080 ∧
    standard.enabled = true ∧ standard.isProxy proxy.ip.toText = true ∧
    next.header? standard.remoteHeader =
      some (appendEntry (left.header? standard.remoteHeader) "10.0.0.2") ∧
    standard.resolve proxy next = .ok ⟨.v4 203 0 113 9, 4711, 0⟩ := by
  decide +kernel

end Forwarding

end Gatehouse
