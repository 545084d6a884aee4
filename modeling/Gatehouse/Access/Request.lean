/-
**Requests.**

What authentication sees of a request: headers by lower-case name, the query, and where it comes
from.

* `Request.header?`: a header by its name in any case;
* `Request.parameter?`: the first query parameter of a name.
-/

import Gatehouse.Table
import Gatehouse.Network.Address

namespace Gatehouse

/-- A request to authenticate. -/
structure Request where
  headers : Table String
  query : Option String
  method : String
  path : String
  /-- The address of the client, once it is known. -/
  client : Option SocketAddress
deriving DecidableEq

namespace Request

/-- A request that carries nothing. -/
def blank : Request := ⟨.empty, none, "", "", none⟩

instance : Inhabited Request := ⟨blank⟩

/-- The value of a header; capital ASCII letters of the name count as small ones. -/
def header? (request : Request) (name : String) : Option String :=
  request.headers.find? (Text.lowerAscii name)

/-- A part of a query as name and value; without an equals sign the value is empty. -/
def parameterOf (part : List Char) : List Char × List Char :=
  (Text.splitFirst? '=' part).getD (part, [])

/-- The value of the first query parameter with the given name. -/
def parameter? (request : Request) (name : String) : Option String :=
  request.query.bind fun query =>
    ((Text.splitAll '&' query.toList).map parameterOf).findSome? fun (key, value) =>
      if String.ofList key = name then some (String.ofList value) else none

end Request

end Gatehouse
