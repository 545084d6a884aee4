/-
**Cached documents.**

Documents are read from a store once and kept. Nothing is read before the store is ready; once it
has been, it is not asked about its condition again.

* `Documents.get`: the document of one type;
* `Documents.getBulk`: the documents of several types, the missing ones in one read.
-/

import Gatehouse.Documents.Store
import Gatehouse.Yaml.Tree

namespace Gatehouse

/-- Why documents cannot be had. -/
inductive DocumentError where
  | notReady
  | malformed (type : String) (detail : String)
  | store (error : StoreError)
  | persistUnsupported
deriving DecidableEq, Repr

/-- The error in words. -/
def DocumentError.message : DocumentError → String
  | .notReady => "Configuration store not ready"
  | .malformed type detail => "Failed to parse configuration '" ++ type ++ "': " ++ detail
  | .store error => "Configuration store error: " ++ error.message
  | .persistUnsupported => "Persisting configuration is not implemented"

/-- A store, the documents kept from it, and whether it has been found ready. -/
structure Documents (σ : Type) where
  store : σ
  cache : Table Settings
  ready : Bool

namespace Documents

variable {σ : Type} [DocumentStore σ]

/-- Nothing kept yet. -/
def ofStore (store : σ) : Documents σ := ⟨store, .empty, false⟩

/-- Whether the store is ready: started, with an index, and serving. Later answers do not matter
once it is. -/
def ensureReady (documents : Documents σ) : Bool × Documents σ :=
  if documents.ready then (true, documents)
  else
    let (lifecycle, store) := DocumentStore.lifecycle documents.store
    if lifecycle ≠ .started then (false, { documents with store := store })
    else
      let (exists_, store) := DocumentStore.indexExists store
      if !exists_ then (false, { documents with store := store })
      else
        let (health, store) := DocumentStore.health store
        if !health.isServing then (false, { documents with store := store })
        else (true, { documents with store := store, ready := true })

/-- The settings of the documents found; the first malformed one is an error. -/
def parseAll (found : Table Settings) :
    List (String × StoredDocument) → Except DocumentError (Table Settings)
  | [] => .ok found
  | (type, .found text) :: rest =>
    match Settings.ofYaml text with
    | .ok settings => parseAll (found.put type settings) rest
    | .error fault => .error (.malformed type fault.message)
  | (_, .missing) :: rest => parseAll found rest
  | (_, .failed _) :: rest => parseAll found rest

/-- Read documents from the store. -/
def load (types : List String) (documents : Documents σ) :
    Except DocumentError (Table Settings) × Documents σ :=
  let (answer, store) := DocumentStore.multiGet types documents.store
  let documents := { documents with store := store }
  match answer with
  | .ok listed => (parseAll .empty listed, documents)
  | .error error => (.error (.store error), documents)

/-- Keep a document unless one of its type is kept already; the one that is kept afterwards. -/
def keep (type : String) (settings : Settings) (documents : Documents σ) :
    Settings × Documents σ :=
  ((documents.cache.find? type).getD settings,
    { documents with cache := documents.cache.putIfAbsent type settings })

/-- The document of a type; none when the store is not ready or has no such document. -/
def get (type : String) (documents : Documents σ) :
    Except DocumentError (Option Settings) × Documents σ :=
  let (ready, documents) := documents.ensureReady
  if !ready then (.ok none, documents)
  else match documents.cache.find? type with
    | some settings => (.ok (some settings), documents)
    | none =>
      let (loaded, documents) := documents.load [type]
      match loaded with
      | .error error => (.error error, documents)
      | .ok found =>
        match found.find? type with
        | none => (.ok none, documents)
        | some settings =>
          let (kept, documents) := documents.keep type settings
          (.ok (some kept), documents)

/-- Keep documents one after another and add them to those given. -/
def keepAll : Entries Settings → Table Settings → Documents σ → Table Settings × Documents σ
  | [], given, documents => (given, documents)
  | (type, settings) :: rest, given, documents =>
    let (kept, documents) := documents.keep type settings
    keepAll rest (given.put type kept) documents

/-- The kept documents among the given types. -/
def kept (documents : Documents σ) (types : List String) : Table Settings :=
  types.foldl (fun given type => match documents.cache.find? type with
    | some settings => given.put type settings
    | none => given) .empty

/-- The documents of several types; a type without a document is left out. -/
def getBulk (types : List String) (documents : Documents σ) :
    Except DocumentError (Table Settings) × Documents σ :=
  if types.isEmpty then (.ok .empty, documents)
  else
    let (ready, documents) := documents.ensureReady
    if !ready then (.ok .empty, documents)
    else
      let given := documents.kept types
      let absent := types.filter fun type => !documents.cache.contains type
      if absent.isEmpty then (.ok given, documents)
      else
        let (loaded, documents) := documents.load absent
        match loaded with
        | .error error => (.error error, documents)
        | .ok found =>
          let (given, documents) := keepAll found.entries given documents
          (.ok given, documents)

end Documents

end Gatehouse
