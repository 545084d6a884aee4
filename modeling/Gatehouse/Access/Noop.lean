/-
**The backend that trusts the extractor.**

Users that the extractor established are accepted with the roles it asserted; a secret is refused,
because nothing verifies it here.
-/

import Gatehouse.Access.Mechanism

namespace Gatehouse.Noop

def typeName : String := "noop"

def authenticate (credentials : Credentials) : Except AccessError Identity :=
  if credentials.username = "" then .error .missingCredentials
  else if !credentials.isComplete then .error .credentialsInvalid
  else .ok ⟨credentials.username, credentials.roles⟩

/-- The backend; it knows every user. -/
def backend (δ : Type) : Backend δ where
  typeName := typeName
  authenticate credentials state := (authenticate credentials, state)
  knows _ state := (.ok true, state)

end Gatehouse.Noop
