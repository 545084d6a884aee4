/-
**Credentials and identities.**

What a request presents, who it turns out to be, and how a client is asked for more.

* `Credentials`: a user name with a secret still to be verified, or established already;
* `Identity`: an authenticated caller and the roles it has.
-/

import Gatehouse.Table
import Gatehouse.Text.Quoted
import Gatehouse.Text.Utf8

namespace Gatehouse

open Text (Bytes)

/-- What vouches for the user name of credentials. -/
inductive Evidence where
  /-- A secret that a backend has to verify. -/
  | secret (bytes : Bytes)
  /-- The extractor established the user itself, from a token or a trusted header. -/
  | established
deriving DecidableEq

/-- Credentials taken from a request. -/
structure Credentials where
  username : String
  evidence : Evidence
  roles : NameSet
  attributes : Table String
deriving DecidableEq

namespace Credentials

/-- Credentials with a secret. -/
def withSecret (username : String) (secret : Bytes) : Credentials :=
  ⟨username, .secret secret, .empty, .empty⟩

/-- Credentials that the extractor established. -/
def established (username : String) : Credentials := ⟨username, .established, .empty, .empty⟩

def addRoles (credentials : Credentials) (roles : List String) : Credentials :=
  { credentials with
    roles := roles.foldl (fun set role => set.put role ()) credentials.roles }

def addAttribute (credentials : Credentials) (name value : String) : Credentials :=
  { credentials with attributes := credentials.attributes.put name value }

/-- The secret; established credentials have none. -/
def secret? (credentials : Credentials) : Option Bytes :=
  match credentials.evidence with
  | .secret bytes => some bytes
  | .established => none

/-- Whether the extractor established the user. -/
def isComplete (credentials : Credentials) : Bool :=
  match credentials.evidence with
  | .secret _ => false
  | .established => true

/-- The credentials for diagnostics, without the secret itself. -/
def describe (credentials : Credentials) : String :=
  let secret := if credentials.isComplete then "None" else "Some(\"<redacted>\")"
  let complete := if credentials.isComplete then "true" else "false"
  let roles := ", ".intercalate (credentials.roles.names.map Text.quote)
  "Credentials \x7b username: " ++ Text.quote credentials.username ++ ", secret: " ++ secret ++
    ", complete: " ++ complete ++ ", backend_roles: \x7b" ++ roles ++ "\x7d \x7d"

end Credentials

/-- An authenticated caller. -/
structure Identity where
  username : String
  roles : NameSet
deriving DecidableEq

namespace Identity

/-- The caller with a user name and roles. -/
def ofRoles (username : String) (roles : List String) : Identity :=
  ⟨username, NameSet.ofNames roles⟩

def anonymousName : String := "anonymous"

def anonymous : Identity := ⟨anonymousName, .empty⟩

/-- Whether a caller has the anonymous name and no roles. -/
def isAnonymous (identity : Identity) : Bool :=
  identity.username = anonymousName && identity.roles.entries.isEmpty

end Identity

/-- A response header that asks a client to authenticate. -/
structure Challenge where
  header : String
  value : String
deriving DecidableEq

/-- A challenge in the standard header. -/
def Challenge.wwwAuthenticate (value : String) : Challenge := ⟨"WWW-Authenticate", value⟩

end Gatehouse
