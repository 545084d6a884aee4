/-
**The address of a client.**

A request that comes from a proxy lists the addresses that it has passed, the nearest last. The
client is the nearest one that is no proxy, or the farthest one if all are.

* `Forwarding.descend`: what the list of addresses says;
* `Forwarding.resolve`: the address of the client of a request;
* `Forwarding.asFromClient`: the request as it would have come from the client.
-/

import Gatehouse.Access.Request
import Gatehouse.Forwarding.Settings

namespace Gatehouse

/-- What a list of addresses says: the entry of the client, the trusted proxies passed, and the
entries before the client. -/
structure Passage where
  entry : String
  trusted : List String
  remaining : List String
deriving DecidableEq, Repr

/-- The address of a client, the trusted proxies passed, and the entries before it. -/
structure Resolution where
  client : SocketAddress
  trusted : List String
  remaining : List String
deriving DecidableEq, Repr

namespace Forwarding

/-- Walk over entries, the nearest first. -/
def descend (forwarding : Forwarding) : List String → Option Passage
  | [] => none
  | entry :: farther =>
    if forwarding.isInternal entry then
      some ((descend forwarding farther).getD ⟨entry, [], []⟩)
    else if forwarding.isTrusted entry then
      match descend forwarding farther with
      | some passage => some { passage with trusted := passage.trusted ++ [entry] }
      | none => some ⟨entry, [entry], []⟩
    else some ⟨entry, [], farther.reverse⟩

/-- The entries that a request lists, the farthest first. -/
def entries (forwarding : Forwarding) (request : Request) : List String :=
  ((request.header? forwarding.remoteHeader).map Text.commaList).getD []

/-- What stands between square brackets. -/
def unbracketed? (entry : List Char) : Option (List Char) :=
  match entry with
  | '[' :: rest => if rest.getLast? = some ']' then some rest.dropLast else none
  | _ => none

/-- The address of an entry: bare, with a port, or in square brackets. -/
def address? (entry : String) : Option IpAddress :=
  ((IpAddress.parse? entry).orElse fun _ => (SocketAddress.parse? entry).map (·.ip)).orElse fun _ =>
    (unbracketed? entry.toList).bind fun inner => IpAddress.parse? (String.ofList inner)

/-- Nothing is resolved: the peer is the client. -/
def unresolved (peer : SocketAddress) : Resolution := ⟨peer, [], []⟩

/-- The resolution of a passage; the client keeps the port of the peer. -/
def ofPassage (peer : SocketAddress) (passage : Passage) : Except ForwardingError Resolution :=
  match address? passage.entry with
  | some ip => .ok ⟨⟨ip, peer.port, 0⟩, passage.trusted, passage.remaining⟩
  | none => .error (.addressUnresolvable passage.entry)

/-- What a request from a peer says about its client. -/
def resolution (forwarding : Forwarding) (peer : SocketAddress) (request : Request) :
    Except ForwardingError Resolution :=
  if !forwarding.enabled || !forwarding.isProxy peer.ip.toText then .ok (unresolved peer)
  else match forwarding.descend (forwarding.entries request).reverse with
    | none => .ok (unresolved peer)
    | some passage => ofPassage peer passage

/-- The address of the client of a request. -/
def resolve (forwarding : Forwarding) (peer : SocketAddress) (request : Request) :
    Except ForwardingError SocketAddress :=
  (forwarding.resolution peer request).map (·.client)

/-- Set a header to a list of entries; an empty list removes it. -/
def listHeader (name : String) (listed : List String) (headers : Table String) : Table String :=
  let name := Text.lowerAscii name
  if listed.isEmpty then headers.erase name else headers.put name (Text.joinComma listed)

/-- The request as it would have come from the client. -/
def asFromClient (forwarding : Forwarding) (peer : SocketAddress) (resolution : Resolution)
    (request : Request) : Request :=
  let headers :=
    if resolution.client = peer then request.headers
    else listHeader forwarding.proxiesHeader resolution.trusted
      (listHeader forwarding.remoteHeader resolution.remaining request.headers)
  { request with headers := headers, client := some resolution.client }

/-- Find the client of a request, and turn the request into one that comes from it. -/
def resolveRequest (forwarding : Forwarding) (peer : SocketAddress) (request : Request) :
    Except ForwardingError SocketAddress × Request :=
  match forwarding.resolution peer request with
  | .error error => (.error error, request)
  | .ok resolution => (.ok resolution.client, forwarding.asFromClient peer resolution request)

/-- Take over the settings of a document; unusable ones change nothing. -/
def change (settings : Settings) (forwarding : Forwarding) :
    Except ForwardingError Unit × Forwarding :=
  match ofSettings settings with
  | .ok changed => (.ok (), changed)
  | .error error => (.error error, forwarding)

end Forwarding

end Gatehouse
