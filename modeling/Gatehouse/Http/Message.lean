/-
**HTTP messages.**

Requests and responses of version 1.1, one of each on a connection. The body of a request is not
looked at.

* `Http.Request.ofLines?`: the request of the lines before its body;
* `Http.Response.toBytes`: a response as it is sent.
-/

import Gatehouse.Text.Split
import Gatehouse.Text.Utf8

namespace Gatehouse.Http

open Text (Bytes)

/-- A request; header lines are in the order they are sent. -/
structure Request where
  method : String
  target : String
  headers : List (String × Bytes)
deriving DecidableEq, Repr

/-- A response. -/
structure Response where
  status : Nat
  headers : List (String × Bytes)
  body : String
deriving DecidableEq, Repr

namespace Request

/-- The target without what follows a number sign. -/
def resource (request : Request) : List Char :=
  request.target.toList.takeWhile (· ≠ '#')

/-- What stands before the question mark of the target. -/
def path (request : Request) : String := String.ofList (request.resource.takeWhile (· ≠ '?'))

/-- What stands behind the question mark of the target. -/
def query (request : Request) : Option String :=
  (Text.splitFirst? '?' request.resource).map fun (_, query) => String.ofList query

/-- Method and target of a first line. -/
def ofFirstLine? (line : List Char) : Option (String × String) :=
  match Text.splitAll ' ' line with
  | [method, target, version] =>
    if "HTTP/1.".toList.isPrefixOf version then some (String.ofList method, String.ofList target)
    else none
  | _ => none

def splitColon? : Bytes → Option (Bytes × Bytes)
  | [] => none
  | byte :: rest =>
    if byte = 0x3A then some ([], rest)
    else (splitColon? rest).map fun (name, value) => (byte :: name, value)

/-- Bytes without spaces and tabs at both ends. -/
def trimmed (bytes : Bytes) : Bytes :=
  let isSpace (byte : UInt8) : Bool := byte = 0x20 || byte = 0x09
  ((bytes.dropWhile isSpace).reverse.dropWhile isSpace).reverse

/-- Name and value of a header line. -/
def header? (line : Bytes) : Option (String × Bytes) := do
  let (name, value) ← splitColon? line
  return (← Text.decode? name, trimmed value)

/-- The request of the lines before its body. -/
def ofLines? : List Bytes → Option Request
  | [] => none
  | first :: lines => do
    let (method, target) ← ofFirstLine? (← Text.decode? first).toList
    return ⟨method, target, ← lines.mapM header?⟩

end Request

namespace Response

/-- A response with a text of a type. -/
def ofText (status : Nat) (type body : String) : Response :=
  ⟨status, [("content-type", Text.encode type)], body⟩

def addHeader (response : Response) (name : String) (value : Bytes) : Response :=
  { response with headers := response.headers ++ [(name, value)] }

/-- A status in words. -/
def reason (status : Nat) : String :=
  match status with
  | 200 => "OK"
  | 400 => "Bad Request"
  | 401 => "Unauthorized"
  | 403 => "Forbidden"
  | _ => "Service Unavailable"

/-- A response as it is sent; the connection ends with it. -/
def toBytes (response : Response) : Bytes :=
  let line (content : Bytes) : Bytes := content ++ [0x0D, 0x0A]
  let body := Text.encode response.body
  let ending : List (String × Bytes) :=
    [("content-length", Text.encode (toString body.length)), ("connection", Text.encode "close")]
  line (Text.encode ("HTTP/1.1 " ++ toString response.status ++ " " ++ reason response.status)) ++
    ((response.headers ++ ending).flatMap fun (name, value) =>
      line (Text.encode (name ++ ": ") ++ value)) ++
    line [] ++ body

end Response

end Gatehouse.Http
