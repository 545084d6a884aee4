/-
**The published chain over any run.**

A registry takes over documents one after another. Every document either describes a chain, which is
then published as a whole, or describes none and leaves everything as it was. So the published chain
is that of the last document that was taken over, and its domains are those that this document
describes, in order.

* `Builds`: an entry of the settings describes a domain; `domain?_eq_some_iff`;
* `Describes`: settings describe a chain, said of its list of domains; `describes_of_chainOf`;
* `chainOf_eq_error_iff`: when settings describe none;
* `rebuildAll`: a run of documents; `published_rebuildAll_iff`: what it leaves published;
* **`chain_of_last_applied`**: all of this of a registry that starts without a chain.
-/

import Gatehouse.Chain.Registry

namespace Gatehouse.Registry

variable {δ : Type}

/-! ### Domains of entries -/

/-- An entry that is not disabled describes a domain: its name and settings, and an extractor and a
backend that can be built. -/
structure Builds (types : TypeTable δ) (name : String) (entry : Settings) (domain : Domain δ) :
    Prop where
  enabled : entry.flag "enabled" true = true
  name : domain.name = name
  order : domain.order = entry.integer "order" 0
  challenges : domain.challenges =
    entry.flag "http_authenticator.challenge" (entry.flag "challenge" true)
  backend : types.backend ((entry.text? "authentication_backend.type").getD Internal.typeName)
    (entry.under "authentication_backend.config") = .ok domain.backend
  extractor : types.extractor ((entry.text? "http_authenticator.type").getD Basic.typeName)
    (entry.under "http_authenticator.config") = .ok domain.extractor

/-- The domain used without any other: basic credentials of internal users. -/
structure BuildsDefault (types : TypeTable δ) (domain : Domain δ) : Prop where
  name : domain.name = defaultName
  order : domain.order = 0
  challenges : domain.challenges = true
  extractor : types.extractor Basic.typeName .empty = .ok domain.extractor
  backend : types.backend Internal.typeName .empty = .ok domain.backend

variable {types : TypeTable δ}

theorem domainOf_eq_ok_iff {name : String} {entry : Settings} {domain : Domain δ}
    (enabled : entry.flag "enabled" true = true) :
    domainOf types name entry = .ok domain ↔ Builds types name entry domain := by
  unfold domainOf
  constructor
  · intro built
    cases backend : types.backend ((entry.text? "authentication_backend.type").getD
        Internal.typeName) (entry.under "authentication_backend.config") with
    | error error => simp only [backend] at built; cases built
    | ok verifier =>
      cases extractor : types.extractor ((entry.text? "http_authenticator.type").getD
          Basic.typeName) (entry.under "http_authenticator.config") with
      | error error => simp only [backend, extractor] at built; cases built
      | ok taken =>
        simp only [backend, extractor] at built
        cases built
        exact ⟨enabled, rfl, rfl, rfl, backend, extractor⟩
  · rintro ⟨_, rfl, order, challenges, backend, extractor⟩
    simp only [backend, extractor]
    rw [← order, ← challenges]
    rfl

theorem domain?_eq_some_iff {name : String} {entry : Settings} {domain : Domain δ} :
    domain? types (name, entry) = some domain ↔ Builds types name entry domain := by
  unfold domain?
  by_cases enabled : entry.flag "enabled" true = true
  · rw [if_pos enabled, ← domainOf_eq_ok_iff enabled]
    cases domainOf types name entry <;> simp [Except.toOption]
  · rw [if_neg enabled]
    constructor
    · intro impossible; cases impossible
    · intro builds; exact (enabled builds.enabled).elim

theorem defaultDomain_eq_ok_iff {domain : Domain δ} :
    defaultDomain types = .ok domain ↔ BuildsDefault types domain := by
  unfold defaultDomain
  constructor
  · intro built
    cases extractor : types.extractor Basic.typeName .empty with
    | error error => rw [extractor] at built; cases built
    | ok taken =>
      cases backend : types.backend Internal.typeName .empty with
      | error error => rw [extractor, backend] at built; cases built
      | ok verifier =>
        rw [extractor, backend] at built
        cases built
        exact ⟨rfl, rfl, rfl, extractor, backend⟩
  · rintro ⟨name, order, challenges, extractor, backend⟩
    rw [extractor, backend, ← name, ← order, ← challenges]
    rfl

theorem mem_domainsOf_iff {settings : Settings} {domain : Domain δ} :
    domain ∈ domainsOf types settings ↔
      ∃ entry ∈ (settings.groups domainsPath).entries, Builds types entry.1 entry.2 domain := by
  unfold domainsOf
  rw [List.mem_filterMap]
  exact exists_congr fun entry => and_congr_right fun _ => domain?_eq_some_iff

/-- The names of the described domains are names of groups, each at most once and in their order. -/
theorem names_domainsOf_sublist (types : TypeTable δ) (settings : Settings) :
    ((domainsOf types settings).map (·.name)).Sublist (settings.groups domainsPath).names := by
  unfold domainsOf Table.names
  induction (settings.groups domainsPath).entries with
  | nil => exact .slnil
  | cons entry rest ih =>
    obtain ⟨name, group⟩ := entry
    cases described : domain? types (name, group) with
    | none =>
      rw [List.filterMap_cons_none described]
      exact ih.cons name
    | some domain =>
      rw [List.filterMap_cons_some described, List.map_cons, List.map_cons,
        (domain?_eq_some_iff.mp described).name]
      exact ih.cons_cons name

theorem nodup_names_domainsOf (types : TypeTable δ) (settings : Settings) :
    ((domainsOf types settings).map (·.name)).Nodup := by
  have ascending : (settings.groups domainsPath).names.Pairwise (· < ·) :=
    List.pairwise_map.mpr (settings.groups domainsPath).ascending
  refine (ascending.imp fun less same => ?_).sublist (names_domainsOf_sublist types settings)
  exact String.lt_irrefl _ (same ▸ less)

/-! ### Chains of documents -/

/-- Settings describe a chain: exactly the domains that the groups below `dynamic.authc` describe, or
the default one where these are none, each once and in ascending order of order number and name, with
the flag of the same settings. -/
structure Describes (types : TypeTable δ) (settings : Settings) (chain : Chain δ) : Prop where
  mem_iff : (∃ entry ∈ (settings.groups domainsPath).entries, ∃ domain,
      Builds types entry.1 entry.2 domain) →
    ∀ domain, domain ∈ chain.domains ↔
      ∃ entry ∈ (settings.groups domainsPath).entries, Builds types entry.1 entry.2 domain
  default : (¬ ∃ entry ∈ (settings.groups domainsPath).entries, ∃ domain,
      Builds types entry.1 entry.2 domain) →
    ∃ domain, chain.domains = [domain] ∧ BuildsDefault types domain
  ascending : chain.domains.Pairwise fun first second =>
    first.order < second.order ∨ first.order = second.order ∧ first.name < second.name
  distinct : chain.names.Nodup
  nonempty : chain.domains ≠ []
  anonymous : chain.anonymous = settings.flag anonymousPath false

theorem mem_ofDomains_iff {domains : List (Domain δ)} {anonymous : Bool} {domain : Domain δ} :
    domain ∈ (Chain.ofDomains domains anonymous).domains ↔ domain ∈ domains :=
  (List.mergeSort_perm domains Domain.isAtMost).mem_iff

theorem nodup_names_ofDomains {domains : List (Domain δ)} (anonymous : Bool)
    (distinct : (domains.map (·.name)).Nodup) :
    (Chain.ofDomains domains anonymous).names.Nodup := by
  have sorted := List.mergeSort_perm domains Domain.isAtMost
  exact (sorted.map fun domain : Domain δ => domain.name).nodup_iff.mpr distinct

/-- A sorted chain without repeated names ascends strictly. -/
theorem ascending_of_nodup {chain : Chain δ} (distinct : chain.names.Nodup) :
    chain.domains.Pairwise fun first second =>
      first.order < second.order ∨ first.order = second.order ∧ first.name < second.name := by
  have different : chain.domains.Pairwise fun first second => first.name ≠ second.name :=
    List.pairwise_map.mp distinct
  refine (chain.sorted.and different).imp fun {first second} pair => ?_
  obtain ⟨atMost, unequal⟩ := pair
  simp only [Domain.isAtMost, Bool.or_eq_true, Bool.and_eq_true, decide_eq_true_eq] at atMost
  rcases atMost with below | ⟨same, before⟩
  · exact Or.inl below
  · refine Or.inr ⟨same, Decidable.byContradiction fun notBelow => unequal ?_⟩
    exact String.le_antisymm before (String.not_lt.mp notBelow)

theorem domainsOf_eq_nil_iff {settings : Settings} :
    domainsOf types settings = [] ↔ ¬ ∃ entry ∈ (settings.groups domainsPath).entries, ∃ domain,
      Builds types entry.1 entry.2 domain := by
  rw [List.eq_nil_iff_forall_not_mem]
  constructor
  · rintro lacking ⟨entry, member, domain, builds⟩
    exact lacking domain (mem_domainsOf_iff.mpr ⟨entry, member, builds⟩)
  · intro lacking domain member
    obtain ⟨entry, inside, builds⟩ := mem_domainsOf_iff.mp member
    exact lacking ⟨entry, inside, domain, builds⟩

theorem chainOf_of_domains {settings : Settings} (nonempty : domainsOf types settings ≠ []) :
    chainOf types settings =
      .ok (.ofDomains (domainsOf types settings) (settings.flag anonymousPath false)) := by
  unfold chainOf
  split
  · next empty => exact (nonempty empty).elim
  · rfl

theorem chainOf_of_no_domains {settings : Settings} (empty : domainsOf types settings = []) :
    chainOf types settings = match defaultDomain types with
      | .ok domain => .ok (.ofDomains [domain] (settings.flag anonymousPath false))
      | .error _ => .error .noDefaultDomain := by
  unfold chainOf
  split
  · rfl
  · next nonempty => exact (nonempty empty).elim

/-- The chain of settings is as they describe it. -/
theorem describes_of_chainOf {settings : Settings} {chain : Chain δ}
    (built : chainOf types settings = .ok chain) : Describes types settings chain := by
  by_cases nothing : domainsOf types settings = []
  · rw [chainOf_of_no_domains nothing] at built
    cases default : defaultDomain types with
    | error error => rw [default] at built; cases built
    | ok domain =>
      rw [default] at built
      cases built
      have alone : (Chain.ofDomains [domain] (settings.flag anonymousPath false)).domains =
          [domain] := List.mergeSort_singleton domain
      have single : ([domain].map (·.name)).Nodup := by simp
      have distinct := nodup_names_ofDomains (settings.flag anonymousPath false) single
      exact {
        mem_iff := fun described => (domainsOf_eq_nil_iff.mp nothing described).elim
        default := fun _ => ⟨domain, alone, defaultDomain_eq_ok_iff.mp default⟩
        ascending := ascending_of_nodup distinct
        distinct := distinct
        nonempty := by rw [alone]; exact List.cons_ne_nil _ _
        anonymous := rfl }
  · rw [chainOf_of_domains nothing] at built
    cases built
    have distinct := nodup_names_ofDomains (settings.flag anonymousPath false)
      (nodup_names_domainsOf types settings)
    obtain ⟨first, member⟩ := List.exists_mem_of_ne_nil _ nothing
    exact {
      mem_iff := fun _ domain => mem_ofDomains_iff.trans mem_domainsOf_iff
      default := fun empty => (nothing (domainsOf_eq_nil_iff.mpr empty)).elim
      ascending := ascending_of_nodup distinct
      distinct := distinct
      nonempty := List.ne_nil_of_mem (mem_ofDomains_iff.mpr member)
      anonymous := rfl }

/-- Settings describe no chain exactly when no group and not even the default describes a domain;
this is the only error. -/
theorem chainOf_eq_error_iff {settings : Settings} {error : DomainError} :
    chainOf types settings = .error error ↔
      error = .noDefaultDomain ∧
      (¬ ∃ entry ∈ (settings.groups domainsPath).entries, ∃ domain,
        Builds types entry.1 entry.2 domain) ∧
      ¬ ∃ domain, BuildsDefault types domain := by
  rw [← domainsOf_eq_nil_iff]
  by_cases nothing : domainsOf types settings = []
  · rw [chainOf_of_no_domains nothing]
    cases default : defaultDomain types with
    | error reason =>
      have missing : ¬ ∃ domain, BuildsDefault types domain := by
        rintro ⟨domain, builds⟩
        rw [defaultDomain_eq_ok_iff.mpr builds] at default
        cases default
      simp [nothing, missing, eq_comm]
    | ok domain =>
      have found := defaultDomain_eq_ok_iff.mp default
      constructor
      · intro impossible; cases impossible
      · rintro ⟨_, _, missing⟩; exact (missing ⟨domain, found⟩).elim
  · rw [chainOf_of_domains nothing]
    constructor
    · intro impossible; cases impossible
    · rintro ⟨_, empty, _⟩; exact (nothing empty).elim

/-! ### One call -/

theorem types_rebuild (settings : Settings) (registry : Registry δ) :
    (registry.rebuild settings).2.types = registry.types := by
  unfold rebuild
  split <;> rfl

theorem rebuild_of_chainOf {settings : Settings} {registry : Registry δ} {chain : Chain δ}
    (built : chainOf registry.types settings = .ok chain) :
    registry.rebuild settings = (.ok (), { registry with published := some chain }) := by
  unfold rebuild
  rw [built]

/-- A document that describes no chain changes nothing. -/
theorem rebuild_of_error {settings : Settings} {registry : Registry δ} {error : DomainError}
    (failed : chainOf registry.types settings = .error error) :
    registry.rebuild settings = (.error error, registry) := by
  unfold rebuild
  rw [failed]

theorem rebuild_eq_error_iff {settings : Settings} {registry : Registry δ} {error : DomainError} :
    (registry.rebuild settings).1 = .error error ↔
      chainOf registry.types settings = .error error := by
  cases outcome : chainOf registry.types settings with
  | ok chain => simp [rebuild_of_chainOf outcome]
  | error reason => simp [rebuild_of_error outcome]

/-! ### Runs -/

/-- Take over documents one after another; every call is listed with its document and its result. -/
def rebuildAll : List Settings → Registry δ →
    List (Settings × Except DomainError Unit) × Registry δ
  | [], registry => ([], registry)
  | settings :: rest, registry =>
    let (result, registry) := registry.rebuild settings
    let (calls, registry) := rebuildAll rest registry
    ((settings, result) :: calls, registry)

theorem types_rebuildAll (documents : List Settings) (registry : Registry δ) :
    (rebuildAll documents registry).2.types = registry.types := by
  induction documents generalizing registry with
  | nil => rfl
  | cons settings rest ih =>
    show (rebuildAll rest (registry.rebuild settings).2).2.types = _
    rw [ih, types_rebuild]

/-- The last call among `calls` that succeeded was for `settings`. -/
def LastApplied (calls : List (Settings × Except DomainError Unit)) (settings : Settings) : Prop :=
  ∃ before after, calls = before ++ (settings, .ok ()) :: after ∧ ∀ call ∈ after, call.2 ≠ .ok ()

theorem LastApplied.mem {calls : List (Settings × Except DomainError Unit)} {settings : Settings}
    (last : LastApplied calls settings) : (settings, .ok ()) ∈ calls := by
  obtain ⟨before, after, rfl, _⟩ := last
  simp

theorem lastApplied_cons_ok_iff {first settings : Settings}
    {calls : List (Settings × Except DomainError Unit)} :
    LastApplied ((first, .ok ()) :: calls) settings ↔
      (settings = first ∧ ∀ call ∈ calls, call.2 ≠ .ok ()) ∨ LastApplied calls settings := by
  constructor
  · rintro ⟨before, after, split, failed⟩
    cases before with
    | nil => cases split; exact Or.inl ⟨rfl, failed⟩
    | cons head before => cases split; exact Or.inr ⟨before, after, rfl, failed⟩
  · rintro (⟨rfl, failed⟩ | ⟨before, after, rfl, failed⟩)
    · exact ⟨[], calls, rfl, failed⟩
    · exact ⟨_ :: before, after, rfl, failed⟩

theorem lastApplied_cons_error_iff {first settings : Settings} {error : DomainError}
    {calls : List (Settings × Except DomainError Unit)} :
    LastApplied ((first, .error error) :: calls) settings ↔ LastApplied calls settings := by
  constructor
  · rintro ⟨before, after, split, failed⟩
    cases before with
    | nil => cases split
    | cons head before => cases split; exact ⟨before, after, rfl, failed⟩
  · rintro ⟨before, after, rfl, failed⟩
    exact ⟨_ :: before, after, rfl, failed⟩

theorem exists_lastApplied_iff {calls : List (Settings × Except DomainError Unit)} :
    (∃ settings, LastApplied calls settings) ↔ ∃ call ∈ calls, call.2 = .ok () := by
  induction calls with
  | nil => simp [LastApplied]
  | cons call rest ih =>
    obtain ⟨first, result⟩ := call
    cases result with
    | error error => simp [lastApplied_cons_error_iff, ih]
    | ok _ =>
      simp only [List.mem_cons, exists_eq_or_imp, true_or, iff_true]
      by_cases later : ∃ call ∈ rest, call.2 = .ok ()
      · obtain ⟨settings, last⟩ := ih.mpr later
        exact ⟨settings, lastApplied_cons_ok_iff.mpr (Or.inr last)⟩
      · refine ⟨first, lastApplied_cons_ok_iff.mpr (Or.inl ⟨rfl, ?_⟩)⟩
        exact fun call member succeeded => later ⟨call, member, succeeded⟩

/-- After a run the chain of the last applied document is published; when none was applied, the
chain from before the run still is. -/
theorem published_rebuildAll_iff {documents : List Settings} {registry : Registry δ}
    {chain : Chain δ} :
    (rebuildAll documents registry).2.published = some chain ↔
      (registry.published = some chain ∧
        ∀ call ∈ (rebuildAll documents registry).1, call.2 ≠ .ok ()) ∨
      ∃ settings, LastApplied (rebuildAll documents registry).1 settings ∧
        chainOf registry.types settings = .ok chain := by
  induction documents generalizing registry with
  | nil => simp [rebuildAll, LastApplied]
  | cons settings rest ih =>
    cases outcome : chainOf registry.types settings with
    | error error =>
      have call := rebuild_of_error outcome
      simp only [rebuildAll, call, lastApplied_cons_error_iff, List.forall_mem_cons, ih, ne_eq,
        reduceCtorEq, not_false_eq_true, true_and]
    | ok built =>
      have call := rebuild_of_chainOf outcome
      simp only [rebuildAll, call, lastApplied_cons_ok_iff, List.forall_mem_cons, ih, ne_eq,
        not_true_eq_false, false_and, and_false, false_or, Option.some.injEq]
      constructor
      · rintro (⟨rfl, failed⟩ | ⟨last, applied, same⟩)
        · exact ⟨settings, Or.inl ⟨rfl, failed⟩, outcome⟩
        · exact ⟨last, Or.inr applied, same⟩
      · rintro ⟨last, ⟨rfl, failed⟩ | applied, same⟩
        · rw [outcome] at same
          cases same
          exact Or.inl ⟨rfl, failed⟩
        · exact Or.inr ⟨last, applied, same⟩

/-- A call that succeeded was for settings that describe a chain. -/
theorem chainOf_of_mem_rebuildAll {documents : List Settings} {registry : Registry δ}
    {settings : Settings} (applied : (settings, .ok ()) ∈ (rebuildAll documents registry).1) :
    ∃ chain, chainOf registry.types settings = .ok chain := by
  induction documents generalizing registry with
  | nil => cases applied
  | cons first rest ih =>
    cases outcome : chainOf registry.types first with
    | error error =>
      simp only [rebuildAll, rebuild_of_error outcome, List.mem_cons, Prod.mk.injEq, reduceCtorEq,
        and_false, false_or] at applied
      exact ih applied
    | ok built =>
      simp only [rebuildAll, rebuild_of_chainOf outcome, List.mem_cons, Prod.mk.injEq,
        and_true] at applied
      rcases applied with rfl | later
      · exact ⟨built, outcome⟩
      · have found := ih later
        exact found

/-- **The published chain over any run.** Let a registry start without a chain and take over any
documents. It is initialized exactly when some call succeeded; what is published then is the chain
of the last document whose call succeeded, and depends on nothing else; and a chain of settings is
as `Describes` says. A further call fails exactly when no group describes a domain and the default
one cannot be built, always with the same error, and then it changes nothing. -/
theorem chain_of_last_applied (types : TypeTable δ) (documents : List Settings) :
    let run := rebuildAll documents (ofTypes types)
    (run.2.isInitialized = true ↔ ∃ call ∈ run.1, call.2 = .ok ()) ∧
    (∀ chain, run.2.published = some chain ↔
      ∃ settings, LastApplied run.1 settings ∧ chainOf types settings = .ok chain) ∧
    (∀ settings chain, chainOf types settings = .ok chain → Describes types settings chain) ∧
    (∀ settings error, (run.2.rebuild settings).1 = .error error ↔
      error = .noDefaultDomain ∧
      (¬ ∃ entry ∈ (settings.groups domainsPath).entries, ∃ domain,
        Builds types entry.1 entry.2 domain) ∧
      ¬ ∃ domain, BuildsDefault types domain) ∧
    ∀ settings error, (run.2.rebuild settings).1 = .error error →
      (run.2.rebuild settings).2 = run.2 := by
  intro run
  have types_run : run.2.types = types := types_rebuildAll documents (ofTypes types)
  have published : ∀ chain, run.2.published = some chain ↔
      ∃ settings, LastApplied run.1 settings ∧ chainOf types settings = .ok chain := by
    intro chain
    rw [published_rebuildAll_iff]
    exact ⟨fun found => found.resolve_left fun before => (Option.some_ne_none _) before.1.symm,
      Or.inr⟩
  refine ⟨?_, published, fun _ _ => describes_of_chainOf, fun settings error => ?_,
    fun settings error failed => ?_⟩
  · rw [← exists_lastApplied_iff, isInitialized, Option.isSome_iff_exists]
    constructor
    · rintro ⟨chain, found⟩
      obtain ⟨settings, last, _⟩ := (published chain).mp found
      exact ⟨settings, last⟩
    · rintro ⟨settings, last⟩
      obtain ⟨chain, built⟩ := chainOf_of_mem_rebuildAll last.mem
      exact ⟨chain, (published chain).mpr ⟨settings, last, built⟩⟩
  · rw [rebuild_eq_error_iff, types_run, chainOf_eq_error_iff]
  · rw [rebuild_of_error (rebuild_eq_error_iff.mp failed)]

end Gatehouse.Registry
