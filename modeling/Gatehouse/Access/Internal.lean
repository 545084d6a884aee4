/-
**The backend over the internal users.**

Users stand in a document: under each name a password hash and roles, and perhaps another user name
that the entry answers to as well.

* `Internal.findUser`: the entry of a user, by key first and by alias otherwise;
* `Internal.authenticate`: the caller whose password gives the stored hash;
* `Internal.knows`: whether a user has an entry.
-/

import Gatehouse.Access.Mechanism
import Gatehouse.Password.Stored
import Gatehouse.Settings.Groups
import Gatehouse.Documents.Repository

namespace Gatehouse.Internal

open Text (Bytes)

def typeName : String := "internal"

/-- An older name that settings may still use for it. -/
def legacyTypeName : String := "intern"

/-- The entry of a user. -/
structure UserEntry where
  hash : String
  roles : List String
deriving DecidableEq, Repr

/-- The entry under a key; an entry without a hash does not count. -/
def entryAt (users : Settings) (key : String) : Option UserEntry :=
  (users.text? (key ++ ".hash")).map fun hash => ⟨hash, users.texts (key ++ ".roles")⟩

/-- The key of the first entry with a user name as its alias. -/
def aliasKey? (users : Settings) (username : String) : Option String :=
  (List.find? (fun entry => entry.2.text? "username" = some username)
    (users.groups "").entries).map (·.1)

/-- The entry of a user: the one under its name, or the first one with its name as alias. -/
def findUser (users : Settings) (username : String) : Option UserEntry :=
  match entryAt users username with
  | some entry => some entry
  | none => (aliasKey? users username).bind (entryAt users)

/-- The caller whose password gives the hash of an entry. -/
def check (credentials : Credentials) (entry : UserEntry) : Except AccessError Identity :=
  match Password.verify (credentials.secret?.getD []) entry.hash with
  | .error error => .error error
  | .ok false => .error .credentialsInvalid
  | .ok true => .ok (.ofRoles credentials.username entry.roles)

/-- The caller that credentials stand for among given users. -/
def authenticateAmong (users : Settings) (credentials : Credentials) :
    Except AccessError Identity :=
  match findUser users credentials.username with
  | none => .error (.notFound credentials.username)
  | some entry => check credentials entry

variable {σ : Type} [DocumentStore σ]

/-- The caller that credentials stand for among the users of a store. -/
def authenticate (credentials : Credentials) (documents : Documents σ) :
    Except AccessError Identity × Documents σ :=
  let (read, documents) := documents.get usersType
  (match read with
    | .error error => .error (.backendUnavailable (.documents error))
    | .ok none => .error (.backendUnavailable .noUsers)
    | .ok (some users) => authenticateAmong users credentials, documents)

/-- Whether a user has an entry; without a document of users nobody has. -/
def knows (username : String) (documents : Documents σ) :
    Except AccessError Bool × Documents σ :=
  let (read, documents) := documents.get usersType
  (match read with
    | .error error => .error (.backendUnavailable (.documents error))
    | .ok none => .ok false
    | .ok (some users) => .ok (findUser users username).isSome, documents)

/-- The backend over the users of a store. -/
def backend (σ : Type) [DocumentStore σ] : Backend (Documents σ) where
  typeName := typeName
  authenticate := authenticate
  knows := knows

end Gatehouse.Internal
