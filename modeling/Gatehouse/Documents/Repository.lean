/-
**The document repository.**

Cached documents whose reloading is announced to listeners. A listener acts on a world of its own,
of type `ω`; whatever it replies, the listeners after it are told all the same.

* `Repository.reload`: read documents anew, keep them, and tell every listener of their types once;
* `Repository.subscribedTypes`: the types that listeners wait for.
-/

import Gatehouse.Documents.Cache

namespace Gatehouse

/-- How a listener takes a document. -/
inductive Reply where
  | applied
  | refused (reason : String)
  | panicked
deriving DecidableEq, Repr

/-- A listener: what it does to the world when it is told of a document. -/
abbrev Listener (ω : Type) := Settings → ω → Reply × ω

/-- A listener and the type of the documents it is told of. -/
structure Subscription (ω : Type) where
  type : String
  listener : Listener ω

/-- Documents and the subscriptions to them, in the order they were made. -/
structure Repository (σ ω : Type) where
  documents : Documents σ
  subscriptions : List (Subscription ω)

namespace Repository

variable {σ ω : Type} [DocumentStore σ]

/-- A repository over a store, without subscriptions. -/
def ofStore (store : σ) : Repository σ ω := ⟨.ofStore store, []⟩

/-- The document of a type. -/
def get (type : String) (repository : Repository σ ω) :
    Except DocumentError (Option Settings) × Repository σ ω :=
  let (answer, documents) := repository.documents.get type
  (answer, { repository with documents := documents })

/-- The documents of several types. -/
def getBulk (types : List String) (repository : Repository σ ω) :
    Except DocumentError (Table Settings) × Repository σ ω :=
  let (answer, documents) := repository.documents.getBulk types
  (answer, { repository with documents := documents })

/-- Register a listener for a type. -/
def subscribe (type : String) (listener : Listener ω) (repository : Repository σ ω) :
    Repository σ ω :=
  { repository with subscriptions := repository.subscriptions ++ [⟨type, listener⟩] }

/-- The types that have listeners, ascending. -/
def subscribedTypes (repository : Repository σ ω) : List String :=
  (NameSet.ofNames (repository.subscriptions.map (·.type))).names

/-- Tell every listener whose type has a new document, in the order of subscription. -/
def notify (changed : Table Settings) : List (Subscription ω) → ω → ω
  | [], world => world
  | subscription :: rest, world =>
    match changed.find? subscription.type with
    | none => notify changed rest world
    | some settings => notify changed rest (subscription.listener settings world).2

/-- Replace the kept documents by the loaded ones. -/
def keepLoaded (loaded : Table Settings) (documents : Documents σ) : Documents σ :=
  { documents with
    cache := loaded.entries.foldl (fun cache entry => cache.put entry.1 entry.2) documents.cache }

/-- Read documents from the store again, whatever is kept; every document found replaces the kept
one and is announced, also an unchanged one. -/
def reload (types : List String) (repository : Repository σ ω) (world : ω) :
    Except DocumentError (Table Settings) × Repository σ ω × ω :=
  let (ready, documents) := repository.documents.ensureReady
  if !ready then (.ok .empty, { repository with documents := documents }, world)
  else
    let (loaded, documents) := documents.load types
    match loaded with
    | .error error => (.error error, { repository with documents := documents }, world)
    | .ok found =>
      (.ok found, { repository with documents := keepLoaded found documents },
        notify found repository.subscriptions world)

/-- Reload every type that has listeners. -/
def reloadSubscribed (repository : Repository σ ω) (world : ω) :
    Except DocumentError (Table Settings) × Repository σ ω × ω :=
  repository.reload repository.subscribedTypes world

/-- Writing a document to the store is not supported. -/
def persist (_type : String) (_settings : Settings) (_repository : Repository σ ω) :
    Except DocumentError Unit := .error .persistUnsupported

end Repository

/-- The type of the document with the authentication and proxy settings. -/
def configType : String := "config"

/-- The type of the document with the internal users. -/
def usersType : String := "internalusers"

end Gatehouse
