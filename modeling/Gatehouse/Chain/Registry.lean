/-
**The registry of domains.**

The registry holds the chain in use. A chain is built from settings as a whole and then published,
so that a failure leaves the chain before it in use.

* `Registry.domainsOf`: the domains that settings describe and that can be built;
* `Registry.chainOf`: the chain of settings; without any domain it is the default one;
* `Registry.rebuild`: publish the chain of settings.
-/

import Gatehouse.Access.Basic
import Gatehouse.Access.Internal
import Gatehouse.Chain.Types
import Gatehouse.Metrics
import Gatehouse.Settings.Groups

namespace Gatehouse

/-- The types of domains, and the chain published last. -/
structure Registry (δ : Type) where
  types : TypeTable δ
  published : Option (Chain δ)

namespace Registry

variable {δ : Type}

/-- Where settings say whether anonymous access is on. -/
def anonymousPath : String := "dynamic.http.anonymous_auth_enabled"

/-- Where settings describe the domains. -/
def domainsPath : String := "dynamic.authc"

/-- The name of the domain that is used when settings describe none. -/
def defaultName : String := "default"

/-- A registry that has not published a chain. -/
def ofTypes (types : TypeTable δ) : Registry δ := ⟨types, none⟩

/-- The chain in use; it is empty before the first one is published. -/
def chain (registry : Registry δ) : Chain δ := registry.published.getD .empty

/-- Whether a chain has been published. -/
def isInitialized (registry : Registry δ) : Bool := registry.published.isSome

/-- The domain that an entry of the settings describes. -/
def domainOf (types : TypeTable δ) (name : String) (entry : Settings) :
    Except DomainError (Domain δ) := do
  let backendType := (entry.text? "authentication_backend.type").getD Internal.typeName
  let extractorType := (entry.text? "http_authenticator.type").getD Basic.typeName
  let backend ← types.backend backendType (entry.under "authentication_backend.config")
  let extractor ← types.extractor extractorType (entry.under "http_authenticator.config")
  let challenges := entry.flag "http_authenticator.challenge" (entry.flag "challenge" true)
  return ⟨name, entry.integer "order" 0, challenges, extractor, backend⟩

/-- The domain of an entry that is not disabled and can be built. -/
def domain? (types : TypeTable δ) (entry : String × Settings) : Option (Domain δ) :=
  if entry.2.flag "enabled" true then (domainOf types entry.1 entry.2).toOption else none

/-- The domains that settings describe. -/
def domainsOf (types : TypeTable δ) (settings : Settings) : List (Domain δ) :=
  (settings.groups domainsPath).entries.filterMap (domain? types)

/-- The domain that is used when settings describe none: basic credentials of internal users. -/
def defaultDomain (types : TypeTable δ) : Except DomainError (Domain δ) := do
  let extractor ← types.extractor Basic.typeName .empty
  let backend ← types.backend Internal.typeName .empty
  return ⟨defaultName, 0, true, extractor, backend⟩

/-- The chain of settings. -/
def chainOf (types : TypeTable δ) (settings : Settings) : Except DomainError (Chain δ) :=
  let anonymous := settings.flag anonymousPath false
  match domainsOf types settings with
  | [] =>
    match defaultDomain types with
    | .ok domain => .ok (.ofDomains [domain] anonymous)
    | .error _ => .error .noDefaultDomain
  | domains => .ok (.ofDomains domains anonymous)

/-- Publish the chain of settings; a chain that cannot be built changes nothing. -/
def rebuild (settings : Settings) (registry : Registry δ) :
    Except DomainError Unit × Registry δ :=
  match chainOf registry.types settings with
  | .ok chain => (.ok (), { registry with published := some chain })
  | .error error => (.error error, registry)

/-- What is counted when a rebuilding ends. -/
def rebuildEvent (result : Except DomainError Unit) : Event := .rebuild result.isOk

end Registry

end Gatehouse
