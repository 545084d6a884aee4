/-
**Document stores.**

A store holds at most one document a type and can be asked about its condition. Stores differ in
what their answers depend on and change; a store is therefore any type of states with these four
questions.
-/

import Gatehouse.Settings.Basic

namespace Gatehouse

/-- How far a store has been started. -/
inductive Lifecycle where
  | initializing
  | started
  | stopped
deriving DecidableEq, Repr

/-- How well a store serves reads. -/
inductive Health where
  | green
  | yellow
  | red
  | timedOut
deriving DecidableEq, Repr

/-- Whether reads are served, perhaps in a degraded way. -/
def Health.isServing : Health → Bool
  | .green | .yellow => true
  | .red | .timedOut => false

/-- What reading one document gives. -/
inductive StoredDocument where
  | found (text : String)
  | missing
  | failed (reason : String)
deriving DecidableEq, Repr

/-- Why a store gives no answer at all. -/
inductive StoreError where
  | unavailable (reason : String)
  | io (reason : String)
deriving DecidableEq, Repr

/-- The error in words. -/
def StoreError.message : StoreError → String
  | .unavailable reason => "Store unavailable: " ++ reason
  | .io reason => "IO error: " ++ reason

/-- The answer to reading several documents. -/
abbrev StoreAnswer := Except StoreError (List (String × StoredDocument))

/-- A store whose states are of type `σ`. Every question may change the state. -/
class DocumentStore (σ : Type) where
  lifecycle : σ → Lifecycle × σ
  indexExists : σ → Bool × σ
  health : σ → Health × σ
  /-- Read the documents of the given types, with one entry for each. -/
  multiGet : List String → σ → StoreAnswer × σ

/-! ### Tracing a store -/

/-- A question put to a store. -/
inductive StoreCall where
  | lifecycle
  | indexExists
  | health
  | multiGet (types : List String)
deriving DecidableEq, Repr

/-- A store together with the questions put to it so far, the last one first. -/
structure Traced (σ : Type) where
  store : σ
  calls : List StoreCall

/-- Every question is put to the store and written down. -/
instance {σ : Type} [DocumentStore σ] : DocumentStore (Traced σ) where
  lifecycle traced :=
    let (answer, store) := DocumentStore.lifecycle traced.store
    (answer, ⟨store, .lifecycle :: traced.calls⟩)
  indexExists traced :=
    let (answer, store) := DocumentStore.indexExists traced.store
    (answer, ⟨store, .indexExists :: traced.calls⟩)
  health traced :=
    let (answer, store) := DocumentStore.health traced.store
    (answer, ⟨store, .health :: traced.calls⟩)
  multiGet types traced :=
    let (answer, store) := DocumentStore.multiGet types traced.store
    (answer, ⟨store, .multiGet types :: traced.calls⟩)

/-! ### A store in memory -/

/-- A store in memory; its condition is set from outside. -/
structure MemoryStore where
  documents : Table String
  lifecycle : Lifecycle
  indexExists : Bool
  health : Health

/-- A started, healthy store without documents. -/
def MemoryStore.empty : MemoryStore := ⟨.empty, .started, true, .green⟩

/-- The document of a type. -/
def MemoryStore.document (store : MemoryStore) (type : String) : StoredDocument :=
  match store.documents.find? type with
  | some text => .found text
  | none => .missing

instance : DocumentStore MemoryStore where
  lifecycle store := (store.lifecycle, store)
  indexExists store := (store.indexExists, store)
  health store := (store.health, store)
  multiGet types store := (.ok (types.map fun type => (type, store.document type)), store)

end Gatehouse
