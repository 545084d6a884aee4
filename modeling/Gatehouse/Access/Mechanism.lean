/-
**Extractors and backends.**

The two halves of an authentication domain. An extractor takes credentials from a request and knows
how to ask for them; a backend decides what credentials are worth. Both are values, so that any
functions can take part in a chain. A backend works on states of type `δ`, such as the documents
that hold its users.
-/

import Gatehouse.Access.Error
import Gatehouse.Access.Identity
import Gatehouse.Access.Request

namespace Gatehouse

/-- An extractor of credentials. -/
structure Extractor where
  /-- The name of the kind of extractor. -/
  typeName : String
  /-- Take credentials from a request at a time in seconds since 1970; `none` when the request
  carries nothing for this mechanism. -/
  extract : Nat → Request → Except AccessError (Option Credentials)
  /-- How to ask a client for credentials, given those it sent, if the mechanism can ask at all. -/
  challenge : Option Credentials → Option Challenge

/-- A verifier of credentials over states of type `δ`. -/
structure Backend (δ : Type) where
  /-- The name of the kind of backend. -/
  typeName : String
  /-- The caller that credentials stand for. -/
  authenticate : Credentials → δ → Except AccessError Identity × δ
  /-- Whether a user is known. -/
  knows : String → δ → Except AccessError Bool × δ

end Gatehouse
