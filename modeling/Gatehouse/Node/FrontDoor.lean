/-
**The front door.**

Every request that comes in is authenticated and answered with the identity behind it. Why a request
is not accepted is never said.

* `FrontDoor.headersOf`: the headers of a request as authentication sees them;
* `FrontDoor.respond`: the response to a request.
-/

import Gatehouse.Http.Message
import Gatehouse.Json.Tree
import Gatehouse.Node.Basic
import Gatehouse.Text.Timestamp

namespace Gatehouse

open Text (Bytes)

/-- Why the front door cannot be opened. -/
inductive BindError where
  | invalidAddress
deriving DecidableEq, Repr

def BindError.message : BindError → String
  | .invalidAddress => "Failed to bind to address: Invalid address: invalid socket address syntax"

namespace FrontDoor

open Http (Response)

/-- The address at which the front door opens. -/
def addressOf (text : String) : Except BindError SocketAddress :=
  match SocketAddress.parse? text with
  | some address => .ok address
  | none => .error .invalidAddress

/-! ### Requests -/

/-- Whether a byte of a header value is a visible character, a space or a tab. -/
def isVisible (byte : UInt8) : Bool := (0x20 ≤ byte && byte < 0x7F) || byte = 0x09

/-- The text of a header value; a value with other bytes has none. -/
def visibleText? (value : Bytes) : Option String :=
  if value.all isVisible then Text.decode? value else none

/-- Add a header line: lines of one name are joined, and a line without text does not count. -/
def addLine (headers : Table String) (line : String × Bytes) : Table String :=
  match visibleText? line.2 with
  | none => headers
  | some text =>
    let name := Text.lowerAscii line.1
    match headers.find? name with
    | some before => headers.put name (before ++ ", " ++ text)
    | none => headers.put name text

/-- The headers of a request as authentication sees them. -/
def headersOf (lines : List (String × Bytes)) : Table String := lines.foldl addLine .empty

/-- A request as authentication sees it. -/
def requestOf (peer : SocketAddress) (request : Http.Request) : Request where
  headers := headersOf request.headers
  query := request.query
  method := request.method
  path := request.path
  client := some peer

/-! ### Responses -/

/-- Whether a byte may stand in a header value. -/
def isValueByte (byte : UInt8) : Bool := (0x20 ≤ byte && byte ≠ 0x7F) || byte = 0x09

/-- Whether a character may stand in a header name. -/
def isNameChar (c : Char) : Bool := c.isAlphanum || "!#$%&'*+-.^_|~\x60".toList.contains c

/-- Add a header to a response, if it is one. -/
def addHeader (name value : String) (response : Response) : Response :=
  let bytes := Text.encode value
  if name ≠ "" && name.toList.all isNameChar && bytes.all isValueByte then
    response.addHeader (Text.lowerAscii name) bytes
  else response

/-- What a response says of an identity. -/
def identityBody (now : Nat) (client : SocketAddress) (identity : Identity)
    (domain : Option String) : Tree :=
  .object [
    ("authenticated_at", .text (Text.timestamp now)),
    ("domain", (domain.map Tree.text).getD .null),
    ("remote_addr", .text client.toText),
    ("roles", .list (identity.roles.names.map .text)),
    ("user", .text identity.username)]

/-- The response that says that a node works. -/
def healthy : Response := .ofText 200 "application/json" "\x7b\"status\":\"ok\"\x7d"

/-- The response to a request whose client cannot be found. -/
def forbidden : Response := .ofText 403 "text/plain" "Forbidden"

/-- The response to a request that is not accepted. -/
def unauthorized : Response := .ofText 401 "text/plain" "Unauthorized"

/-- The response before a chain has been published. -/
def uninitialized : Response := .ofText 503 "text/plain" "Authentication not initialized"

/-- The response for an outcome. -/
def responseOf (now : Nat) (client : SocketAddress) : Outcome → Response
  | .authenticated identity session domain =>
    let response : Response :=
      .ofText 200 "application/json" (identityBody now client identity domain).toJson
    match session with
    | some session => addHeader Session.headerName session.headerValue response
    | none => response
  | .challenged _ challenge => addHeader challenge.header challenge.value unauthorized
  | .rejected => unauthorized
  | .unavailable => uninitialized

/-- What is counted when the client of a request cannot be found. -/
def clientFailure : Event := .failure "xff"

variable {σ τ : Type} [DocumentStore σ] [SessionStore τ]

def record (event : Event) (node : Node σ τ) : Node σ τ :=
  { node with rollout := { node.rollout with tally := node.rollout.tally.record event } }

/-- The response to a request that is authenticated. -/
def answer (moment : Moment) (peer : SocketAddress) (request : Http.Request) (node : Node σ τ) :
    Response × Node σ τ :=
  match node.handle moment peer (requestOf peer request) with
  | (.error _, node) => (forbidden, record clientFailure node)
  | (.ok (client, outcome), node) => (responseOf moment.now client outcome, node)

/-- The response to a request. The pages of health and of the counters are open to all, the latter
if it is on. -/
def respond (metrics : Bool) (moment : Moment) (peer : SocketAddress) (request : Http.Request)
    (node : Node σ τ) : Response × Node σ τ :=
  if request.method = "GET" && request.path = "/health" then (healthy, node)
  else if metrics && request.method = "GET" && request.path = "/metrics" then
    (.ofText 200 Tally.contentType node.rollout.tally.page, node)
  else answer moment peer request node

end FrontDoor

end Gatehouse
