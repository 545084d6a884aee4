/-
**Built-in types.**

The kinds of extractors and backends that every node knows, built from their settings.

* `TypeTable.builtin`: the table of all of them;
* `Bearer.Rules.ofSettings`: which tokens settings accept.
-/

import Gatehouse.Access.Basic
import Gatehouse.Access.Internal
import Gatehouse.Access.Noop
import Gatehouse.Access.Proxy
import Gatehouse.Bearer.Extractor
import Gatehouse.Chain.Types

namespace Gatehouse

namespace Bearer

/-- The algorithm of tokens unless another one is configured. -/
def defaultAlgorithm : String := "HS256"

/-- The setting of the shared secret. -/
def secretSetting : String := "signing_key"

/-- The setting of the public key. -/
def keySetting : String := "public_key"

/-- The setting of a key, which an algorithm needs. -/
def keyText (settings : Settings) (setting algorithm : String) : Except DomainError String :=
  match settings.text? setting with
  | some text => .ok text
  | none => .error (.invalidSettings (.keyMissing setting algorithm))

/-- The public key of settings. -/
def publicKeyOf (settings : Settings) (name : String) (algorithm : Algorithm) :
    Except DomainError Key := do
  let text ← keyText settings keySetting name
  match Key.ofArmor? algorithm text with
  | some key => return key
  | none => throw (.invalidSettings (.keyUnusable (.invalidToken (.key "InvalidKeyFormat"))))

/-- The key of settings for an algorithm. -/
def keyOf (settings : Settings) (name : String) : Except DomainError Key :=
  match Algorithm.ofName? name with
  | some .hs256 => (keyText settings secretSetting name).map fun text => .secret (Text.encode text)
  | some .rs256 => publicKeyOf settings name .rs256
  | some .es256 => publicKeyOf settings name .es256
  | _ => .error (.invalidSettings (.algorithmUnsupported name))

/-- Which tokens settings accept. -/
def Rules.ofSettings (settings : Settings) : Except DomainError Rules := do
  let name := Text.upperAscii ((settings.text? "algorithm").getD defaultAlgorithm)
  let key ← keyOf settings name
  return {
    key := key
    issuer := settings.text? "issuer"
    audience := settings.text? "audience"
    subjectName := (settings.text? "subject_key").getD Claims.subjectName
    rolesName := (settings.text? "roles_key").getD Claims.rolesName }

end Bearer

namespace TypeTable

/-- Build an extractor of basic credentials. -/
def buildBasic (settings : Settings) : Except DomainError Extractor :=
  .ok (Basic.extractor ((settings.text? "realm").getD Basic.defaultRealm))

/-- Build an extractor of users named by a proxy. -/
def buildProxy (settings : Settings) : Except DomainError Extractor :=
  .ok (Proxy.extractor ((settings.text? "user_header").getD Proxy.defaultUserHeader)
    ((settings.text? "roles_header").getD Proxy.defaultRolesHeader))

/-- Build an extractor of tokens. -/
def buildBearer (settings : Settings) : Except DomainError Extractor :=
  (Bearer.Rules.ofSettings settings).map Bearer.Rules.extractor

/-- Every built-in kind, with backends over the documents of a store. -/
def builtin (σ : Type) [DocumentStore σ] : TypeTable (Documents σ) :=
  let internal : Settings → Except DomainError (Backend (Documents σ)) :=
    fun _ => .ok (Internal.backend σ)
  empty
    |>.addExtractor Basic.typeName buildBasic
    |>.addExtractor Proxy.typeName buildProxy
    |>.addExtractor Bearer.typeName buildBearer
    |>.addBackend Internal.typeName internal
    |>.addBackend Internal.legacyTypeName internal
    |>.addBackend Noop.typeName fun _ => .ok (Noop.backend (Documents σ))

end TypeTable

end Gatehouse
