/-
**The configuration of a node.**

Where a node listens, where its documents are, and which of its parts are on. The text of a
configuration may hold placeholders for variables of the environment.

* `Configuration.ofText`: the configuration of a text, checked;
* `Configuration.check`: what must hold of a configuration.
-/

import Gatehouse.Network.Address
import Gatehouse.Text.Blank
import Gatehouse.Text.Placeholder
import Gatehouse.Text.Utf8
import Gatehouse.Yaml.Record

namespace Gatehouse

open Text (Bytes)
open Yaml (Document Node RecordFault)

/-- What is wrong with a configuration that has been read. -/
inductive ConfigurationFlaw where
  | address (text : String)
  | emptyStorePath
  | zeroLifetime
deriving DecidableEq, Repr

def ConfigurationFlaw.message : ConfigurationFlaw → String
  | .address text => "Invalid server address '" ++ text ++ "': invalid socket address syntax"
  | .emptyStorePath => "store.path cannot be empty"
  | .zeroLifetime => "sessions.ttl_secs must be greater than 0 when sessions are enabled"

/-- Why there is no configuration. -/
inductive ConfigurationError where
  | unreadable (reason : String)
  | malformed (detail : String)
  | invalid (flaw : ConfigurationFlaw)
deriving DecidableEq, Repr

def ConfigurationError.message : ConfigurationError → String
  | .unreadable reason => "Failed to read config file: " ++ reason
  | .malformed detail => "Failed to parse config: " ++ detail
  | .invalid flaw => "Invalid configuration: " ++ flaw.message

/-- The configuration of a node. The lifetime of sessions is in seconds. -/
structure Configuration where
  address : String
  storePath : String
  metrics : Bool
  sessions : Bool
  sessionLifetime : Nat
deriving DecidableEq, Repr

namespace Configuration

/-- The lifetime of sessions unless another one is configured. -/
def defaultLifetime : Nat := 3600

/-- The configuration of a document. -/
def ofDocument (document : Document) : Except RecordFault Configuration := do
  let fields ← document.fields ["server", "store", "metrics", "sessions"] document.root
  let address ← Document.required fields "server" fun _ node => do
    let server ← document.fields ["address"] node
    Document.required server "address" document.text
  let path ← Document.required fields "store" fun _ node => do
    let store ← document.fields ["path"] node
    Document.required store "path" document.text
  let metrics ← Document.optional fields "metrics" true fun _ node => do
    let metrics ← document.fields ["enabled"] node
    Document.optional metrics "enabled" true document.truth
  let sessions ← Document.optional fields "sessions" (false, defaultLifetime) fun _ node => do
    let sessions ← document.fields ["enabled", "ttl_secs"] node
    let enabled ← Document.optional sessions "enabled" false document.truth
    let lifetime ← Document.optional sessions "ttl_secs" defaultLifetime document.natural
    return (enabled, lifetime)
  return ⟨address, path, metrics, sessions.1, sessions.2⟩

/-- What must hold of a configuration; the first flaw is reported. -/
def check (configuration : Configuration) : Except ConfigurationFlaw Configuration :=
  if (SocketAddress.parse? configuration.address).isNone then
    .error (.address configuration.address)
  else if Text.trim configuration.storePath = "" then .error .emptyStorePath
  else if configuration.sessions && configuration.sessionLifetime = 0 then .error .zeroLifetime
  else .ok configuration

/-- The configuration of a YAML text. -/
def ofYaml (text : String) : Except RecordFault Configuration :=
  match Yaml.document? text with
  | .error fault => .error (.malformed fault)
  | .ok none => .error .notRecord
  | .ok (some document) => ofDocument document

/-- The configuration of a text, in an environment of variables. -/
def ofText (environment : String → Option String) (text : String) :
    Except ConfigurationError Configuration :=
  match ofYaml (Text.expand environment text) with
  | .error fault => .error (.malformed fault.message)
  | .ok configuration => configuration.check.mapError .invalid

/-- The configuration in the bytes of a file. -/
def ofBytes (environment : String → Option String) (bytes : Bytes) :
    Except ConfigurationError Configuration :=
  match Text.decode? bytes with
  | some text => ofText environment text
  | none => .error (.unreadable "stream did not contain valid UTF-8")

end Configuration

end Gatehouse
