/-
**Rolling out settings.**

What a node derives from its configuration document: the chain of domains and the reading of
forwarded addresses. Each part takes over a new document by itself; a document that one of them
cannot use leaves that part as it is.

* `Rollout.rebuild`: take over the chain of a document;
* `Rollout.change`: take over the forwarding of a document.
-/

import Gatehouse.Chain.Registry
import Gatehouse.Forwarding.Resolution

namespace Gatehouse

/-- What a node derives from its configuration document, with its counters. -/
structure Rollout (δ : Type) where
  registry : Registry δ
  forwarding : Forwarding
  tally : Tally

namespace Rollout

variable {δ : Type}

/-- Nothing taken over yet. -/
def ofTypes (types : TypeTable δ) : Rollout δ := ⟨.ofTypes types, .disabled, .empty⟩

/-- Take over the chain of a document. -/
def rebuild (settings : Settings) (rollout : Rollout δ) : Except DomainError Unit × Rollout δ :=
  let (result, registry) := rollout.registry.rebuild settings
  (result, { rollout with
    registry := registry
    tally := rollout.tally.record (Registry.rebuildEvent result) })

/-- Take over the forwarding of a document. -/
def change (settings : Settings) (rollout : Rollout δ) :
    Except ForwardingError Unit × Rollout δ :=
  let (result, forwarding) := rollout.forwarding.change settings
  (result, { rollout with forwarding := forwarding })

/-- The listener that takes over the chain. -/
def chainListener : Listener (Rollout δ) := fun settings rollout =>
  match rollout.rebuild settings with
  | (.ok (), rollout) => (.applied, rollout)
  | (.error error, rollout) => (.refused error.message, rollout)

/-- The listener that takes over the forwarding. -/
def forwardingListener : Listener (Rollout δ) := fun settings rollout =>
  match rollout.change settings with
  | (.ok (), rollout) => (.applied, rollout)
  | (.error error, rollout) => (.refused error.message, rollout)

end Rollout

end Gatehouse
