/-
**Documents that are rolled out.**

A chain and the reading of forwarded addresses are derived from the same documents, by two listeners
that know nothing of each other. Each of them works on its own component of the world. So a
component after a run follows from the documents that reloads have found, whatever the other one
makes of them.

* `Occurrence.reloadedDocument?`, `reloadedDocuments`: the documents that a history announces;
* `Listener.Spares`, `Drives`: the listeners that leave a component alone, and the one that does
  not;
* `view_notify`, `view_run`: what one announcement and a whole run do to a component;
* `reloadedDocuments_congr`: what is announced does not depend on the listeners;
* **`registry_and_forwarding_of_reloaded`**: both components after any run.
-/

import Gatehouse.Chain.Builtin
import Gatehouse.Node.Rollout
import Gatehouse.Proofs.Chain.Rebuild
import Gatehouse.Proofs.Documents.Notification
import Mathlib.Data.List.Induction

namespace Gatehouse

variable {σ ω : Type}

/-! ### Documents that reloads find -/

/-- Whether an operation makes a subscription. -/
def Operation.subscribes : Operation σ ω → Bool
  | .subscribe _ _ => true
  | .read _ | .reloadSubscribed | .persist _ _ | .change _ => false

/-- The document of a type that a successful reload gives. -/
def Occurrence.reloadedDocument? (type : String) (occurrence : Occurrence σ ω) : Option Settings :=
  if occurrence.operation.isReload then occurrence.answer.entry? type else none

/-- The documents of a type that the successful reloads of a history give, in their order. -/
def reloadedDocuments (type : String) (history : List (Occurrence σ ω)) : List Settings :=
  history.filterMap (·.reloadedDocument? type)

theorem reloadedDocuments_cons (type : String) (occurrence : Occurrence σ ω)
    (later : List (Occurrence σ ω)) : reloadedDocuments type (occurrence :: later) =
      (occurrence.reloadedDocument? type).toList ++ reloadedDocuments type later := by
  unfold reloadedDocuments
  rw [List.filterMap_cons]
  cases occurrence.reloadedDocument? type <;> rfl

namespace Site

variable [DocumentStore σ]

theorem subscriptions_perform {operation : Operation σ ω} (site : Site σ ω)
    (settled : operation.subscribes = false) :
    (site.perform operation).2.repository.subscriptions = site.repository.subscriptions := by
  cases reads : operation.reading? site with
  | some reading => rw [perform_of_reading reads, perform_read]
  | none =>
    cases operation with
    | read _ | reloadSubscribed => cases reads
    | subscribe _ _ => cases settled
    | persist _ _ | change _ => rfl

/-- An operation tells the listeners of the documents that it gives as a reload, and of nothing
else. -/
theorem world_perform (site : Site σ ω) (operation : Operation σ ω) :
    ∃ announced : Table Settings,
      (∀ type, announced.find? type = (site.observe operation).reloadedDocument? type) ∧
      (site.perform operation).2.world =
        Repository.notify announced site.repository.subscriptions site.world := by
  cases reads : operation.reading? site with
  | none =>
    refine ⟨.empty, fun type => ?_, ?_⟩
    · rw [Table.find?_empty]
      cases operation with
      | read _ | reloadSubscribed => cases reads
      | subscribe _ _ | persist _ _ | change _ => rfl
    · rw [Repository.notify_empty]
      cases operation with
      | read _ | reloadSubscribed => cases reads
      | subscribe _ _ | persist _ _ | change _ => rfl
  | some reading =>
    have answer := (observe_eq_perform reads).1
    refine ⟨reading.announced (site.observe operation).answer, fun type => ?_, ?_⟩
    · unfold Occurrence.reloadedDocument?
      show _ = if operation.isReload then _ else none
      obtain ⟨reloads, types, again⟩ | ⟨other, nothing⟩ := operation.reading?_cases site
      · cases reads.symm.trans again
        rw [if_pos reloads]
        cases given : (site.observe operation).answer with
        | documents result => cases result <;> rfl
        | document _ | done _ => rfl
      · rw [nothing reading _ reads, if_neg (by rw [other]; exact Bool.false_ne_true)]
        rfl
    · rw [answer, perform_of_reading reads, perform_read]

/-- An operation that fails leaves the world as it is. -/
theorem world_perform_of_error {site : Site σ ω} {operation : Operation σ ω}
    (fails : (site.perform operation).1.isOk = false) :
    (site.perform operation).2.world = site.world := by
  cases reads : operation.reading? site with
  | none =>
    cases operation with
    | read _ | reloadSubscribed => cases reads
    | subscribe _ _ | persist _ _ | change _ => rfl
  | some reading =>
    rw [perform_of_reading reads, perform_read] at fails ⊢
    show Repository.notify _ _ _ = _
    rw [reading.announced_of_failure fails, Repository.notify_empty]

end Site

namespace Repository

variable {changed : Table Settings} {subscription : Subscription ω} {rest : List (Subscription ω)}
  {world : ω}

theorem notify_cons_of_none (absent : changed.find? subscription.type = none) :
    notify changed (subscription :: rest) world = notify changed rest world := by
  rw [notify, absent]

theorem notify_cons_of_some {settings : Settings}
    (found : changed.find? subscription.type = some settings) :
    notify changed (subscription :: rest) world =
      notify changed rest (subscription.listener settings world).2 := by
  rw [notify, found]

end Repository

/-! ### Components of the world -/

section Component

variable {α : Type} {view : ω → α} {step : Settings → α → α} {type : String}

/-- A listener leaves a component of the world as it is. -/
def Listener.Spares (view : ω → α) (listener : Listener ω) : Prop :=
  ∀ settings world, view (listener settings world).2 = view world

/-- One subscription takes every document of a type over into a component, step by step. All others
spare the component. -/
inductive Drives (view : ω → α) (step : Settings → α → α) (type : String) :
    List (Subscription ω) → Prop
  | here {listener : Listener ω} {rest : List (Subscription ω)} :
      (∀ settings world, view (listener settings world).2 = step settings (view world)) →
      (∀ other ∈ rest, other.listener.Spares view) →
      Drives view step type (⟨type, listener⟩ :: rest)
  | there {other : Subscription ω} {rest : List (Subscription ω)} :
      other.listener.Spares view → Drives view step type rest →
      Drives view step type (other :: rest)

theorem drives_of_perm {listener : Listener ω} {others subscriptions : List (Subscription ω)}
    (order : subscriptions.Perm (⟨type, listener⟩ :: others))
    (drives : ∀ settings world, view (listener settings world).2 = step settings (view world))
    (spare : ∀ other ∈ others, other.listener.Spares view) :
    Drives view step type subscriptions := by
  have member : ⟨type, listener⟩ ∈ subscriptions := order.mem_iff.mpr List.mem_cons_self
  obtain ⟨before, after, rfl⟩ := List.append_of_mem member
  have rest : (before ++ after).Perm others :=
    List.Perm.cons_inv (List.perm_middle.symm.trans order)
  have spares : ∀ other ∈ before ++ after, other.listener.Spares view := fun other inside =>
    spare other (rest.mem_iff.mp inside)
  clear order member rest
  induction before with
  | nil => exact .here drives spares
  | cons first before ih =>
    refine .there (spares first List.mem_cons_self) (ih fun other inside => ?_)
    exact spares other (List.mem_cons_of_mem _ inside)

theorem view_notify_of_spared (changed : Table Settings) {subscriptions : List (Subscription ω)}
    (spare : ∀ other ∈ subscriptions, other.listener.Spares view) (world : ω) :
    view (Repository.notify changed subscriptions world) = view world := by
  induction subscriptions generalizing world with
  | nil => rfl
  | cons first rest ih =>
    have others := ih fun other inside => spare other (List.mem_cons_of_mem _ inside)
    cases found : changed.find? first.type with
    | none => rw [Repository.notify_cons_of_none found, others]
    | some settings =>
      rw [Repository.notify_cons_of_some found, others]
      exact spare first List.mem_cons_self settings world

/-- An announcement takes a component one step further if it has a document of the type. -/
theorem view_notify (changed : Table Settings) {subscriptions : List (Subscription ω)}
    (drives : Drives view step type subscriptions) (world : ω) :
    view (Repository.notify changed subscriptions world) =
      (changed.find? type).elim (view world) fun settings => step settings (view world) := by
  induction drives generalizing world with
  | @here listener rest takes spare =>
    cases found : changed.find? type with
    | none =>
      rw [Repository.notify_cons_of_none found]
      exact view_notify_of_spared changed spare world
    | some settings =>
      rw [Repository.notify_cons_of_some found, view_notify_of_spared changed spare]
      exact takes settings world
  | @there other rest spares _ ih =>
    cases found : changed.find? other.type with
    | none => rw [Repository.notify_cons_of_none found, ih]
    | some settings => rw [Repository.notify_cons_of_some found, ih, spares settings world]

variable [DocumentStore σ]

/-- **A component after a run** has taken one step for each document that a reload has given. -/
theorem view_run {site : Site σ ω} (drives : Drives view step type site.repository.subscriptions)
    {operations : List (Operation σ ω)}
    (settled : ∀ operation ∈ operations, operation.subscribes = false) :
    view (site.run operations).world =
      (reloadedDocuments type (site.history operations)).foldl
        (fun state settings => step settings state) (view site.world) := by
  induction operations generalizing site with
  | nil => rfl
  | cons operation rest ih =>
    obtain ⟨announced, found, world⟩ := site.world_perform operation
    have here : view (site.perform operation).2.world =
        ((site.observe operation).reloadedDocument? type).elim (view site.world) fun settings =>
          step settings (view site.world) := by
      rw [world, view_notify announced drives, found]
    have subscriptions := site.subscriptions_perform (settled operation List.mem_cons_self)
    rw [← subscriptions] at drives
    have later := ih drives fun other member => settled other (List.mem_cons_of_mem _ member)
    show view ((site.perform operation).2.run rest).world = _
    rw [later, here, Site.history, reloadedDocuments_cons, List.foldl_append]
    cases (site.observe operation).reloadedDocument? type <;> rfl

end Component

/-- What reloads give does not depend on what the listeners do. -/
theorem reloadedDocuments_congr [DocumentStore σ] {site other : Site σ ω}
    (documents : other.documents = site.documents)
    (types : other.repository.subscriptions.map (·.type) =
      site.repository.subscriptions.map (·.type)) {operations : List (Operation σ ω)}
    (settled : ∀ operation ∈ operations, operation.subscribes = false) (type : String) :
    reloadedDocuments type (other.history operations) =
      reloadedDocuments type (site.history operations) := by
  induction operations generalizing site other with
  | nil => rfl
  | cons operation rest ih =>
    have here := settled operation List.mem_cons_self
    obtain ⟨_, answer, after⟩ := Site.observe_congr documents types operation
    have same : (other.observe operation).reloadedDocument? type =
        (site.observe operation).reloadedDocument? type := by
      unfold Occurrence.reloadedDocument?
      rw [answer]
      rfl
    have typesAfter : (other.perform operation).2.repository.subscriptions.map (·.type) =
        (site.perform operation).2.repository.subscriptions.map (·.type) := by
      rw [other.subscriptions_perform here, site.subscriptions_perform here, types]
    have later := ih after typesAfter fun another member =>
      settled another (List.mem_cons_of_mem _ member)
    rw [Site.history, Site.history, reloadedDocuments_cons, reloadedDocuments_cons, same]
    exact congrArg _ later

/-! ### The two components of a node -/

/-- The settings of the last of several documents that has any; without such a document forwarded
addresses are not read. -/
def Forwarding.lastOf (documents : List Settings) : Forwarding :=
  ((documents.filterMap fun settings => (ofSettings settings).toOption).getLast?).getD .disabled

theorem Forwarding.foldl_change (documents : List Settings) :
    documents.foldl (fun forwarding settings => (forwarding.change settings).2) .disabled =
      lastOf documents := by
  induction documents using List.reverseRecOn with
  | nil => rfl
  | append_singleton documents settings ih =>
    rw [List.foldl_append, ih]
    show ((lastOf documents).change settings).2 = _
    unfold change lastOf
    rw [List.filterMap_append]
    cases result : ofSettings settings with
    | ok changed => simp [result, Except.toOption]
    | error error => simp [result, Except.toOption]

theorem Registry.foldl_rebuild {δ : Type} (documents : List Settings) (registry : Registry δ) :
    documents.foldl (fun registry settings => (registry.rebuild settings).2) registry =
      (rebuildAll documents registry).2 := by
  induction documents generalizing registry with
  | nil => rfl
  | cons settings rest ih => exact ih (registry.rebuild settings).2

namespace Rollout

variable {δ : Type}

theorem registry_chainListener (settings : Settings) (rollout : Rollout δ) :
    (chainListener settings rollout).2.registry = (rollout.registry.rebuild settings).2 := by
  unfold chainListener rebuild
  rcases rollout.registry.rebuild settings with ⟨_ | _, registry⟩ <;> rfl

theorem forwarding_chainListener (settings : Settings) (rollout : Rollout δ) :
    (chainListener settings rollout).2.forwarding = rollout.forwarding := by
  unfold chainListener rebuild
  rcases rollout.registry.rebuild settings with ⟨_ | _, registry⟩ <;> rfl

theorem registry_forwardingListener (settings : Settings) (rollout : Rollout δ) :
    (forwardingListener settings rollout).2.registry = rollout.registry := by
  unfold forwardingListener change
  rcases rollout.forwarding.change settings with ⟨_ | _, forwarding⟩ <;> rfl

theorem forwarding_forwardingListener (settings : Settings) (rollout : Rollout δ) :
    (forwardingListener settings rollout).2.forwarding =
      (rollout.forwarding.change settings).2 := by
  unfold forwardingListener change
  rcases rollout.forwarding.change settings with ⟨_ | _, forwarding⟩ <;> rfl

/-- A node over a store where nothing has been taken over yet. -/
def siteOf (types : TypeTable δ) (store : σ) (subscriptions : List (Subscription (Rollout δ))) :
    Site σ (Rollout δ) :=
  ⟨⟨.ofStore store, subscriptions⟩, .ofTypes types⟩

/-- The subscription of the chain to the configuration. -/
def chainSubscription : Subscription (Rollout δ) := ⟨configType, chainListener⟩

/-- The subscription of the forwarding to the configuration. -/
def forwardingSubscription : Subscription (Rollout δ) := ⟨configType, forwardingListener⟩

section Run

variable [DocumentStore σ] {types : TypeTable δ} {store : σ}
  {subscriptions : List (Subscription (Rollout δ))} {other : Listener (Rollout δ)}
  {operations : List (Operation σ (Rollout δ))}

/-- The chain after a run, whatever a listener beside it does to the rest. -/
theorem registry_run (spares : other.Spares Rollout.registry)
    (order : subscriptions.Perm [chainSubscription, ⟨configType, other⟩])
    (settled : ∀ operation ∈ operations, operation.subscribes = false) :
    let site := siteOf types store subscriptions
    (site.run operations).world.registry = (Registry.rebuildAll
      (reloadedDocuments configType (site.history operations)) (.ofTypes types)).2 := by
  intro site
  have drives : Drives Rollout.registry (fun settings registry => (registry.rebuild settings).2)
      configType site.repository.subscriptions := by
    refine drives_of_perm order registry_chainListener fun beside member => ?_
    rw [List.mem_singleton.mp member]
    exact spares
  rw [view_run drives settled, Registry.foldl_rebuild]
  rfl

/-- The forwarding after a run, whatever a listener beside it does to the rest. -/
theorem forwarding_run (spares : other.Spares Rollout.forwarding)
    (order : subscriptions.Perm [forwardingSubscription, ⟨configType, other⟩])
    (settled : ∀ operation ∈ operations, operation.subscribes = false) :
    let site := siteOf types store subscriptions
    (site.run operations).world.forwarding =
      Forwarding.lastOf (reloadedDocuments configType (site.history operations)) := by
  intro site
  have drives : Drives Rollout.forwarding
      (fun settings forwarding => (forwarding.change settings).2) configType
      site.repository.subscriptions := by
    refine drives_of_perm order forwarding_forwardingListener fun beside member => ?_
    rw [List.mem_singleton.mp member]
    exact spares
  rw [view_run drives settled, ← Forwarding.foldl_change]
  rfl

end Run

theorem types_of_perm {first second : Listener (Rollout δ)}
    {subscriptions : List (Subscription (Rollout δ))}
    (order : subscriptions.Perm [⟨configType, first⟩, ⟨configType, second⟩]) :
    subscriptions.map (·.type) = [configType, configType] := by
  have types : (subscriptions.map (·.type)).Perm (List.replicate 2 configType) := order.map _
  exact List.perm_replicate.mp types

/-- **What a node has taken over after any run.** Let the chain and the forwarding be subscribed to
the configuration, in either order, and let the run make no other subscription. Take the documents
that its successful reloads have given.

* The registry is what rebuilding from these documents, one after another, leaves of a new one.
* The forwarding is that of the last of them that gives any.
* An operation that fails changes nothing.
* Neither depends on the other: put any listener that spares it in the place of the other one, and
  it is the same after the run. -/
theorem registry_and_forwarding_of_reloaded [DocumentStore σ] (types : TypeTable δ) (store : σ)
    {subscriptions : List (Subscription (Rollout δ))}
    (order : subscriptions.Perm [chainSubscription, forwardingSubscription])
    {operations : List (Operation σ (Rollout δ))}
    (settled : ∀ operation ∈ operations, operation.subscribes = false) :
    let site := siteOf types store subscriptions
    let found := reloadedDocuments configType (site.history operations)
    let after := site.run operations
    after.world.registry = (Registry.rebuildAll found (.ofTypes types)).2 ∧
    after.world.forwarding = Forwarding.lastOf found ∧
    (∀ operation, (after.perform operation).1.isOk = false →
      (after.perform operation).2.world = after.world) ∧
    (∀ (other : Listener (Rollout δ)) (replaced : List (Subscription (Rollout δ))),
      other.Spares Rollout.registry → replaced.Perm [chainSubscription, ⟨configType, other⟩] →
      ((siteOf types store replaced).run operations).world.registry = after.world.registry) ∧
    ∀ (other : Listener (Rollout δ)) (replaced : List (Subscription (Rollout δ))),
      other.Spares Rollout.forwarding →
      replaced.Perm [forwardingSubscription, ⟨configType, other⟩] →
      ((siteOf types store replaced).run operations).world.forwarding =
        after.world.forwarding := by
  intro site found after
  have reversed : subscriptions.Perm [forwardingSubscription, chainSubscription] :=
    order.trans (.swap _ _ _)
  have registry : after.world.registry = (Registry.rebuildAll found (.ofTypes types)).2 :=
    registry_run registry_forwardingListener order settled
  have forwarding : after.world.forwarding = Forwarding.lastOf found :=
    forwarding_run forwarding_chainListener reversed settled
  -- with another listener in the place of one of the two, reloads give the same documents
  have same (replaced : List (Subscription (Rollout δ)))
      (types_replaced : replaced.map (·.type) = [configType, configType]) :
      reloadedDocuments configType ((siteOf types store replaced).history operations) = found := by
    have documents : (siteOf types store replaced).documents = site.documents := rfl
    have types_same : (siteOf types store replaced).repository.subscriptions.map (·.type) =
        site.repository.subscriptions.map (·.type) :=
      types_replaced.trans (types_of_perm order).symm
    exact reloadedDocuments_congr documents types_same settled configType
  refine ⟨registry, forwarding, fun operation fails => Site.world_perform_of_error fails,
    fun other replaced spares place => ?_, fun other replaced spares place => ?_⟩
  · rw [registry_run spares place settled, same replaced (types_of_perm place), registry]
  · rw [forwarding_run spares place settled, same replaced (types_of_perm place), forwarding]

/-- Three documents one after another, each reloaded: a good one, one with a pattern that cannot be
read, and one that cannot be read at all. -/
def threeDocuments : List (Operation MemoryStore (Rollout (Documents MemoryStore))) :=
  let put (text : String) : Operation MemoryStore (Rollout (Documents MemoryStore)) :=
    .change fun store => { store with documents := store.documents.put configType text }
  [put "dynamic.http.xff.remoteIpHeader: x-real-ip", .reloadSubscribed,
    put "dynamic.http.anonymous_auth_enabled: true\ndynamic.http.xff.internalProxies: (",
    .read (.reload [configType]), put "[", .reloadSubscribed]

/-- The chain is that of the second document, the forwarding that of the first. -/
theorem registry_and_forwarding_of_threeDocuments :
    let site := siteOf (TypeTable.builtin MemoryStore) MemoryStore.empty
      [forwardingSubscription, chainSubscription]
    (reloadedDocuments configType (site.history threeDocuments)).length = 2 ∧
    (site.run threeDocuments).world.registry.chain.anonymous = true ∧
    (site.run threeDocuments).world.forwarding.remoteHeader = "x-real-ip" := by
  intro site
  have order : [forwardingSubscription, chainSubscription].Perm
      [(chainSubscription : Subscription (Rollout (Documents MemoryStore))),
        forwardingSubscription] := .swap _ _ _
  have settled : ∀ operation ∈ threeDocuments, operation.subscribes = false := by decide
  obtain ⟨registry, forwarding, _⟩ :=
    registry_and_forwarding_of_reloaded (TypeTable.builtin MemoryStore) MemoryStore.empty order settled
  rw [registry, forwarding]
  decide +kernel

end Rollout

end Gatehouse
