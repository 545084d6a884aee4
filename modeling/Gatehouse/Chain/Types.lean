/-
**Types of extractors and backends.**

Settings name the kinds of extractors and backends to use. A type table knows how to build each kind
from its own settings.

* `TypeTable.extractor`, `TypeTable.backend`: build one of a named kind.
-/

import Gatehouse.Chain.Domain
import Gatehouse.Settings.Basic

namespace Gatehouse

/-- The two kinds of parts of a domain. -/
inductive Part where
  | extractor
  | backend
deriving DecidableEq, Repr

/-- The name of a kind of part in settings. -/
def Part.name : Part → String
  | .extractor => "http_authenticator"
  | .backend => "authentication_backend"

/-- Why the settings of an extractor cannot be used. -/
inductive SettingsFault where
  /-- A key is missing that the algorithm needs. -/
  | keyMissing (setting algorithm : String)
  | algorithmUnsupported (algorithm : String)
  /-- The key cannot be used. -/
  | keyUnusable (error : AccessError)
deriving DecidableEq, Repr

/-- The fault in words. -/
def SettingsFault.message : SettingsFault → String
  | .keyMissing setting algorithm => "jwt: '" ++ setting ++ "' is required for " ++ algorithm
  | .algorithmUnsupported algorithm => "jwt: unsupported algorithm '" ++ algorithm ++ "'"
  | .keyUnusable error => "jwt: " ++ error.message

/-- Why a domain or a chain cannot be built. -/
inductive DomainError where
  | unknownType (part : Part) (name : String)
  | invalidSettings (fault : SettingsFault)
  | noDefaultDomain
deriving DecidableEq, Repr

/-- The error in words. -/
def DomainError.message : DomainError → String
  | .unknownType part name => "Unknown " ++ part.name ++ " type '" ++ name ++ "'"
  | .invalidSettings fault => "Invalid settings: " ++ fault.message
  | .noDefaultDomain => "No default authentication domain could be constructed"

/-- The kinds of extractors and backends by name. -/
structure TypeTable (δ : Type) where
  extractors : Table (Settings → Except DomainError Extractor)
  backends : Table (Settings → Except DomainError (Backend δ))

namespace TypeTable

variable {δ : Type}

/-- A table that knows nothing. -/
def empty : TypeTable δ := ⟨.empty, .empty⟩

/-- Register a kind of extractor. -/
def addExtractor (name : String) (build : Settings → Except DomainError Extractor)
    (types : TypeTable δ) : TypeTable δ :=
  { types with extractors := types.extractors.put name build }

/-- Register a kind of backend. -/
def addBackend (name : String) (build : Settings → Except DomainError (Backend δ))
    (types : TypeTable δ) : TypeTable δ :=
  { types with backends := types.backends.put name build }

/-- Build an extractor of a named kind. -/
def extractor (types : TypeTable δ) (name : String) (settings : Settings) :
    Except DomainError Extractor :=
  match types.extractors.find? name with
  | some build => build settings
  | none => .error (.unknownType .extractor name)

/-- Build a backend of a named kind. -/
def backend (types : TypeTable δ) (name : String) (settings : Settings) :
    Except DomainError (Backend δ) :=
  match types.backends.find? name with
  | some build => build settings
  | none => .error (.unknownType .backend name)

end TypeTable

end Gatehouse
