/-
**Access errors.**

Every reason for which credentials cannot be taken from a request or are not accepted, with its
wording. What a format reports about a malformed text is kept as a detail in its own words.

* `AccessError.message`: the wording of an error.
-/

import Gatehouse.Documents.Cache
import Gatehouse.Text.Base64

namespace Gatehouse

/-- Why the credentials in an authentication header cannot be read. -/
inductive HeaderFault where
  | encoding (fault : Base64.Fault)
  | noSeparator
  | userNotText
  | emptyUser
deriving DecidableEq, Repr

def HeaderFault.message : HeaderFault → String
  | .encoding fault => "invalid base64: " ++ fault.message
  | .noSeparator => "missing ':' separator"
  | .userNotText => "username is not UTF-8"
  | .emptyUser => "empty username"

/-- Why a token is not accepted, or a key cannot verify tokens. -/
inductive TokenFault where
  /-- The text does not have three parts. -/
  | shape
  /-- A part is not the written form of bytes. -/
  | encoding (detail : String)
  /-- The header or the payload is malformed. -/
  | json (detail : String)
  /-- The header names another algorithm than the configured one. -/
  | algorithm
  | signature
  | issuer
  | audience
  /-- The claim that names the user is missing or empty. -/
  | noSubject (claim : String)
  /-- The configured key is unusable. -/
  | key (detail : String)
deriving DecidableEq, Repr

def TokenFault.message : TokenFault → String
  | .shape => "InvalidToken"
  | .encoding detail => "Base64 error: " ++ detail
  | .json detail => "JSON error: " ++ detail
  | .algorithm => "InvalidAlgorithm"
  | .signature => "InvalidSignature"
  | .issuer => "InvalidIssuer"
  | .audience => "InvalidAudience"
  | .noSubject claim => "missing '" ++ claim ++ "' claim"
  | .key detail => detail

/-- Why a stored password hash cannot be used, or a password cannot be hashed. -/
inductive HashFault where
  | unsupported
  | bcrypt (detail : String)
  | argon2 (detail : String)
  | argon2NoOutput
deriving DecidableEq, Repr

def HashFault.message : HashFault → String
  | .unsupported => "unsupported hash format"
  | .bcrypt detail => detail
  | .argon2 detail => "invalid argon2 hash: " ++ detail
  | .argon2NoOutput => "invalid argon2 hash: missing output"

/-- Why the users cannot be looked up. -/
inductive Outage where
  | documents (error : DocumentError)
  /-- There is no document of users, or the store is not ready. -/
  | noUsers
deriving DecidableEq, Repr

def Outage.message : Outage → String
  | .documents error => error.message
  | .noUsers => "internal user database not configured"

/-- Why no identity comes of a request. -/
inductive AccessError where
  | missingCredentials
  | invalidHeader (fault : HeaderFault)
  | notFound (username : String)
  | emptyCredential
  | credentialsInvalid
  | backendUnavailable (outage : Outage)
  | invalidToken (fault : TokenFault)
  | tokenExpired
  | hash (fault : HashFault)
deriving DecidableEq, Repr

def AccessError.message : AccessError → String
  | .missingCredentials => "Missing authentication"
  | .invalidHeader fault => "Invalid authentication header: " ++ fault.message
  | .notFound username => "User '" ++ username ++ "' not found"
  | .emptyCredential => "Empty passwords are not supported"
  | .credentialsInvalid => "Invalid credentials"
  | .backendUnavailable outage => "Authentication backend unavailable: " ++ outage.message
  | .invalidToken fault => "Invalid token: " ++ fault.message
  | .tokenExpired => "Token expired"
  | .hash fault => "Password hash error: " ++ fault.message

end Gatehouse
