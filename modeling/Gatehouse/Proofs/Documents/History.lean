/-
**Histories of a repository.**

A repository is read, reloaded and subscribed to while its store changes by itself. A history lists
what was done, and for each operation what could be seen of it from outside: the questions put to the
store with their answers, the calls of listeners, and the result.

Nothing of this is told by the repository itself. The store is replaced by one that writes down
every exchange, and each listener by one that writes down every call.

* `Recorded`, `Listener.noted`: the store and the listeners that write down;
* `Site.perform`: one operation; `Site.observe`: the same with what was written down during it;
* `Site.history`: the occurrences of a run;
* `Site.history_keeps`, `Site.history_split`: what every operation keeps holds at the end of a run and
  before each of its occurrences.
-/

import Gatehouse.Documents.Repository
import Mathlib.Control.Monad.Basic

namespace Gatehouse

/-! ### Stores that write down -/

/-- A question put to a store, with the answer to it. -/
inductive Exchange where
  | lifecycle (answer : Lifecycle)
  | indexExists (answer : Bool)
  | health (answer : Health)
  | multiGet (types : List String) (answer : StoreAnswer)
deriving DecidableEq

/-- A store together with the exchanges so far, in their order. -/
structure Recorded (σ : Type) where
  store : σ
  exchanges : List Exchange

instance {σ : Type} [DocumentStore σ] : DocumentStore (Recorded σ) where
  lifecycle recorded :=
    let (answer, store) := DocumentStore.lifecycle recorded.store
    (answer, ⟨store, recorded.exchanges ++ [.lifecycle answer]⟩)
  indexExists recorded :=
    let (answer, store) := DocumentStore.indexExists recorded.store
    (answer, ⟨store, recorded.exchanges ++ [.indexExists answer]⟩)
  health recorded :=
    let (answer, store) := DocumentStore.health recorded.store
    (answer, ⟨store, recorded.exchanges ++ [.health answer]⟩)
  multiGet types recorded :=
    let (answer, store) := DocumentStore.multiGet types recorded.store
    (answer, ⟨store, recorded.exchanges ++ [.multiGet types answer]⟩)

/-! ### Listeners that write down -/

/-- A call of a listener: the position of its subscription, and the document it was told of. -/
structure Call where
  position : Nat
  settings : Settings
deriving DecidableEq

/-- A world together with the calls so far, in their order. -/
structure Noted (ω : Type) where
  world : ω
  calls : List Call

/-- A listener that writes down every call of it. -/
def Listener.noted {ω : Type} (position : Nat) (listener : Listener ω) : Listener (Noted ω) :=
  fun settings noted =>
    let (reply, world) := listener settings noted.world
    (reply, ⟨world, noted.calls ++ [⟨position, settings⟩]⟩)

/-- A subscription at its position, with a listener that writes down. -/
def Subscription.noted {ω : Type} (entry : Subscription ω × Nat) : Subscription (Noted ω) :=
  ⟨entry.1.type, Listener.noted entry.2 entry.1.listener⟩

/-! ### Operations -/

/-- A way of reading documents. -/
inductive Reading where
  | get (type : String)
  | getBulk (types : List String)
  | reload (types : List String)

/-- What can happen to a repository. -/
inductive Operation (σ ω : Type) where
  | read (reading : Reading)
  | reloadSubscribed
  | subscribe (type : String) (listener : Listener ω)
  | persist (type : String) (settings : Settings)
  /-- The store changes, whatever the reason. -/
  | change (edit : σ → σ)

/-- The result of an operation. -/
inductive Answer where
  | document (result : Except DocumentError (Option Settings))
  | documents (result : Except DocumentError (Table Settings))
  | done (result : Except DocumentError Unit)
deriving DecidableEq

/-- A repository in the world that its listeners act on. -/
structure Site (σ ω : Type) where
  repository : Repository σ ω
  world : ω

variable {σ ω : Type}

/-- The same operation where everything is written down; a new subscription has the position. -/
def Operation.noted (position : Nat) : Operation σ ω → Operation (Recorded σ) (Noted ω)
  | .read reading => .read reading
  | .reloadSubscribed => .reloadSubscribed
  | .subscribe type listener => .subscribe type (Listener.noted position listener)
  | .persist type settings => .persist type settings
  | .change edit => .change fun recorded => { recorded with store := edit recorded.store }

namespace Site

/-- A repository over a store, without subscriptions. -/
def ofStore (store : σ) (world : ω) : Site σ ω := ⟨.ofStore store, world⟩

/-- The documents of a site. -/
def documents (site : Site σ ω) : Documents σ := site.repository.documents

/-- The site with other documents. -/
def withDocuments (site : Site σ ω) (documents : Documents σ) : Site σ ω :=
  { site with repository := { site.repository with documents := documents } }

variable [DocumentStore σ]

/-- Carry out an operation. -/
def perform (site : Site σ ω) : Operation σ ω → Answer × Site σ ω
  | .read (.get type) =>
    let (result, repository) := site.repository.get type
    (.document result, { site with repository := repository })
  | .read (.getBulk types) =>
    let (result, repository) := site.repository.getBulk types
    (.documents result, { site with repository := repository })
  | .read (.reload types) =>
    let (result, repository, world) := site.repository.reload types site.world
    (.documents result, ⟨repository, world⟩)
  | .reloadSubscribed =>
    let (result, repository, world) := site.repository.reloadSubscribed site.world
    (.documents result, ⟨repository, world⟩)
  | .subscribe type listener =>
    (.done (.ok ()), { site with repository := site.repository.subscribe type listener })
  | .persist type settings => (.done (site.repository.persist type settings), site)
  | .change edit =>
    (.done (.ok ()),
      site.withDocuments { site.documents with store := edit site.documents.store })

end Site

/-! ### Occurrences -/

/-- What can be seen of one operation, and the site that it leaves. -/
structure Occurrence (σ ω : Type) where
  operation : Operation σ ω
  exchanges : List Exchange
  calls : List Call
  answer : Answer
  site : Site σ ω

/-- Documents over a store that writes down, after some exchanges. -/
def Documents.recorded (documents : Documents σ) (exchanges : List Exchange) :
    Documents (Recorded σ) :=
  ⟨⟨documents.store, exchanges⟩, documents.cache, documents.ready⟩

namespace Site

/-- The site where everything is written down, after some exchanges and calls. -/
def noted (site : Site σ ω) (exchanges : List Exchange) (calls : List Call) :
    Site (Recorded σ) (Noted ω) where
  repository :=
    { documents := site.documents.recorded exchanges
      subscriptions := site.repository.subscriptions.zipIdx.map Subscription.noted }
  world := ⟨site.world, calls⟩

variable [DocumentStore σ]

/-- Carry out an operation and see what is written down during it. -/
def observe (site : Site σ ω) (operation : Operation σ ω) : Occurrence σ ω :=
  let written := (site.noted [] []).perform (operation.noted site.repository.subscriptions.length)
  { operation := operation
    exchanges := written.2.documents.store.exchanges
    calls := written.2.world.calls
    answer := (site.perform operation).1
    site := (site.perform operation).2 }

/-! ### Runs -/

/-- What happens when operations are carried out one after another. -/
def history (site : Site σ ω) : List (Operation σ ω) → List (Occurrence σ ω)
  | [] => []
  | operation :: rest =>
    let occurrence := site.observe operation
    occurrence :: occurrence.site.history rest

/-- The site that operations leave. -/
def run (site : Site σ ω) : List (Operation σ ω) → Site σ ω
  | [] => site
  | operation :: rest => run (site.perform operation).2 rest

/-- Let an invariant of the past and the present hold at the start, and let every operation keep it.
Then it holds at the end of a run. -/
theorem history_keeps (Holds : List (Occurrence σ ω) → Site σ ω → Prop)
    (kept : ∀ past site operation, Holds past site →
      Holds (past ++ [site.observe operation]) (site.perform operation).2)
    {past : List (Occurrence σ ω)} {site : Site σ ω} (holds : Holds past site)
    (operations : List (Operation σ ω)) :
    Holds (past ++ site.history operations) (site.run operations) := by
  induction operations generalizing past site with
  | nil => rwa [history, List.append_nil]
  | cons operation rest ih =>
    have later := ih (kept past site operation holds)
    rwa [List.append_assoc] at later

/-- Such an invariant holds before each occurrence of a history, which is that of its operation. -/
theorem history_split {site : Site σ ω} {operations : List (Operation σ ω)}
    {before after : List (Occurrence σ ω)} {occurrence : Occurrence σ ω}
    (Holds : List (Occurrence σ ω) → Site σ ω → Prop)
    (kept : ∀ past site operation, Holds past site →
      Holds (past ++ [site.observe operation]) (site.perform operation).2)
    (start : Holds [] site) (split : site.history operations = before ++ occurrence :: after) :
    ∃ present, Holds before present ∧ occurrence = present.observe occurrence.operation := by
  -- along the earlier occurrences, with the past that they have already made
  suffices along : ∀ past (site : Site σ ω) operations, Holds past site →
      site.history operations = before ++ occurrence :: after →
      ∃ present, Holds (past ++ before) present ∧
        occurrence = present.observe occurrence.operation from
    along [] site operations start split
  clear start split
  induction before with
  | nil =>
    intro past site operations holds split
    cases operations with
    | nil => cases split
    | cons operation rest =>
      obtain ⟨rfl, _⟩ := List.cons.inj split
      exact ⟨site, by rwa [List.append_nil], rfl⟩
  | cons earlier before ih =>
    intro past site operations holds split
    cases operations with
    | nil => cases split
    | cons operation rest =>
      obtain ⟨rfl, later⟩ := List.cons.inj split
      obtain ⟨present, holds, same⟩ := ih _ _ rest (kept past site operation holds) later
      exact ⟨present, by rwa [List.append_assoc] at holds, same⟩

end Site

end Gatehouse
