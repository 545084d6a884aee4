/-
**One chain for every spelling of a document.**

A document with nested objects may be written with dotted keys instead, in any mixture. Its chain
stays the same as long as no object is left under a key that joins a group's name with the name of a
member: such an object is a group of its own.

* `TypeTable.ReadsSurface`: kinds that read their settings by typed readings, as the built-in ones do;
* `Registry.domainsOf_eq_of_spells`: the domains of an undivided spelling;
* `Registry.not_named_of_disabled`: a disabled group has no domain in any spelling;
* **`Registry.rebuild_of_spelling`**: rebuilding with any spelling of a plain document.
-/

import Gatehouse.Proofs.Chain.Rebuild
import Gatehouse.Proofs.Settings.Readings
import Gatehouse.Chain.Builtin

namespace Gatehouse

open Settings (SameSurface Spells)

/-! ### Kinds that read settings -/

namespace TypeTable

variable {δ : Type}

/-- What is built depends on what typed readings of the settings see, where every dotted path has
one spelling. -/
structure ReadsSurface (types : TypeTable δ) : Prop where
  extractor : ∀ name {first second}, first.toTree.Clear → second.toTree.Clear →
    SameSurface first second → types.extractor name first = types.extractor name second
  backend : ∀ name {first second}, first.toTree.Clear → second.toTree.Clear →
    SameSurface first second → types.backend name first = types.backend name second

namespace ReadsSurface

theorem empty : (TypeTable.empty : TypeTable δ).ReadsSurface where
  extractor _ _ _ _ _ _ := rfl
  backend _ _ _ _ _ _ := rfl

theorem addExtractor {types : TypeTable δ} (reads : types.ReadsSurface) (kind : String)
    {build : Settings → Except DomainError Extractor}
    (sees : ∀ {first second}, first.toTree.Clear → second.toTree.Clear →
      SameSurface first second → build first = build second) :
    (types.addExtractor kind build).ReadsSurface where
  extractor := by
    intro name first second clear clear' same
    have before := reads.extractor name clear clear' same
    unfold TypeTable.extractor TypeTable.addExtractor at *
    rw [Table.find?_put]
    by_cases here : name = kind
    · rw [if_pos here]
      exact sees clear clear' same
    · rw [if_neg here]
      exact before
  backend := reads.backend

theorem addBackend {types : TypeTable δ} (reads : types.ReadsSurface) (kind : String)
    {build : Settings → Except DomainError (Backend δ)}
    (sees : ∀ {first second}, first.toTree.Clear → second.toTree.Clear →
      SameSurface first second → build first = build second) :
    (types.addBackend kind build).ReadsSurface where
  extractor := reads.extractor
  backend := by
    intro name first second clear clear' same
    have before := reads.backend name clear clear' same
    unfold TypeTable.backend TypeTable.addBackend at *
    rw [Table.find?_put]
    by_cases here : name = kind
    · rw [if_pos here]
      exact sees clear clear' same
    · rw [if_neg here]
      exact before

end ReadsSurface

section Builtin

variable {first second : Settings} (same : SameSurface first second)

include same

theorem buildBasic_eq : buildBasic first = buildBasic second := by
  unfold buildBasic
  rw [Settings.text?_eq (same "realm" (by decide))]

theorem buildProxy_eq : buildProxy first = buildProxy second := by
  unfold buildProxy
  rw [Settings.text?_eq (same "user_header" (by decide)),
    Settings.text?_eq (same "roles_header" (by decide))]

theorem keyOf_eq (name : String) : Bearer.keyOf first name = Bearer.keyOf second name := by
  have secret := Settings.text?_eq (same Bearer.secretSetting (by decide))
  have key := Settings.text?_eq (same Bearer.keySetting (by decide))
  unfold Bearer.keyOf Bearer.publicKeyOf Bearer.keyText
  rw [secret, key]

theorem buildBearer_eq : buildBearer first = buildBearer second := by
  unfold buildBearer Bearer.Rules.ofSettings
  rw [Settings.text?_eq (same "algorithm" (by decide)), Settings.text?_eq (same "issuer" (by decide)),
    Settings.text?_eq (same "audience" (by decide)),
    Settings.text?_eq (same "subject_key" (by decide)),
    Settings.text?_eq (same "roles_key" (by decide))]
  simp only [keyOf_eq same]

end Builtin

/-- The built-in kinds read their settings by typed readings. -/
theorem readsSurface_builtin (σ : Type) [DocumentStore σ] : (builtin σ).ReadsSurface := by
  have base : (TypeTable.empty : TypeTable (Documents σ)).ReadsSurface := .empty
  have extractors := ((base.addExtractor Basic.typeName fun _ _ => buildBasic_eq).addExtractor
    Proxy.typeName fun _ _ => buildProxy_eq).addExtractor Bearer.typeName fun _ _ => buildBearer_eq
  exact ((extractors.addBackend Internal.typeName fun _ _ _ => rfl).addBackend
    Internal.legacyTypeName fun _ _ _ => rfl).addBackend Noop.typeName fun _ _ _ => rfl

end TypeTable

/-! ### Domains of a spelling -/

/-- Two tables give the same list when a function makes the same of what they hold under any name. -/
theorem Table.filterMap_entries_eq {α β : Type} {first second : Table α} (f : String × α → Option β)
    (same : ∀ name, (first.find? name).map (fun value => f (name, value)) =
      (second.find? name).map (fun value => f (name, value))) :
    first.entries.filterMap f = second.entries.filterMap f := by
  have split : ∀ entries : Entries α, entries.filterMap f =
      (entries.map fun entry => (entry.1, f entry)).filterMap (·.2) := by
    intro entries
    rw [List.filterMap_map]
    rfl
  have ascending : ∀ table : Table α,
      Entries.Ascending (table.entries.map fun entry => (entry.1, f entry)) := by
    intro table
    exact List.pairwise_map.mpr table.ascending
  have find?_map : ∀ (entries : Entries α) name,
      Entries.find? name (entries.map fun entry => (entry.1, f entry)) =
        (entries.find? name).map fun value => f (name, value) := by
    intro entries name
    induction entries with
    | nil => rfl
    | cons entry rest ih =>
      obtain ⟨key, value⟩ := entry
      rw [List.map_cons, Entries.find?, Entries.find?, ih]
      by_cases here : name = key
      · rw [if_pos here, if_pos here, here]
        rfl
      · rw [if_neg here, if_neg here]
  rw [split, split]
  congr 1
  refine Entries.eq_of_find?_eq (ascending first) (ascending second) fun name => ?_
  rw [find?_map, find?_map]
  exact same name

namespace Registry

variable {δ : Type} {types : TypeTable δ} {nested collapsed : Settings}

/-- A domain is described by the surface of its entry. -/
theorem domain?_eq (reads : types.ReadsSurface) {name : String} {first second : Settings}
    (same : SameSurface first second) (clear : first.toTree.Clear) (clear' : second.toTree.Clear) :
    domain? types (name, first) = domain? types (name, second) := by
  have extractor := fun kind => reads.extractor kind
    (Settings.clear_under clear (show Path.Proper "http_authenticator.config" by decide))
    (Settings.clear_under clear' (by decide)) (same.under (by decide) clear clear')
  have backend := fun kind => reads.backend kind
    (Settings.clear_under clear (show Path.Proper "authentication_backend.config" by decide))
    (Settings.clear_under clear' (by decide)) (same.under (by decide) clear clear')
  unfold domain? domainOf
  simp only [Settings.flag_eq (same "enabled" (by decide)),
    Settings.text?_eq (same "authentication_backend.type" (by decide)),
    Settings.text?_eq (same "http_authenticator.type" (by decide)), backend, extractor,
    Settings.flag_eq (same "http_authenticator.challenge" (by decide)),
    Settings.flag_eq (same "challenge" (by decide)), Settings.integer_eq (same "order" (by decide))]

section Spelling

variable (spells : Spells nested collapsed) (undivided : (nested.under domainsPath).Undivided)

include spells undivided

/-- A spelling has the groups of the original exactly when it is undivided. -/
theorem same_groups_iff :
    (∀ name, (collapsed.groups domainsPath).contains name = true ↔
      (nested.groups domainsPath).contains name = true) ↔
      (collapsed.under domainsPath).Undivided := by
  constructor
  · intro same
    refine Settings.undivided_iff.mpr fun name contained => ?_
    exact Settings.undivided_iff.mp undivided name ((same name).mp contained)
  · intro undividedCollapsed name
    exact spells.contains_groups_iff (by decide) undivided undividedCollapsed name

/-- An undivided spelling describes the domains of the original. -/
theorem domainsOf_eq_of_spells (reads : types.ReadsSurface)
    (undividedCollapsed : (collapsed.under domainsPath).Undivided) :
    domainsOf types collapsed = domainsOf types nested := by
  refine Table.filterMap_entries_eq (domain? types) fun name => ?_
  have contained := (same_groups_iff spells undivided).mpr undividedCollapsed name
  unfold Table.contains at contained
  cases copied : (collapsed.groups domainsPath).find? name with
  | none =>
    rw [copied] at contained
    cases found : (nested.groups domainsPath).find? name with
    | none => rfl
    | some group => rw [found] at contained; cases contained.mpr rfl
  | some copy =>
    rw [copied] at contained
    obtain ⟨group, found⟩ := Option.isSome_iff_exists.mp (contained.mp rfl)
    obtain ⟨same, clearCopy, clear⟩ :=
      spells.sameSurface_group (by decide) undivided undividedCollapsed found copied
    rw [found]
    exact congrArg some (domain?_eq reads same clearCopy clear)

/-- A group that is disabled describes no domain of its name, in whatever spelling. -/
theorem not_named_of_disabled {name : String} {entry : Settings}
    (found : (nested.groups domainsPath).find? name = some entry)
    (disabled : entry.flag "enabled" true = false) :
    ∀ domain ∈ domainsOf types collapsed, domain.name ≠ name := by
  rintro domain member rfl
  obtain ⟨⟨other, copy⟩, inside, builds⟩ := mem_domainsOf_iff.mp member
  obtain rfl : domain.name = other := builds.name
  have copied : (collapsed.groups domainsPath).find? domain.name = some copy :=
    Entries.find?_of_mem (collapsed.groups domainsPath).ascending inside
  have dotless := Settings.undivided_iff.mp undivided _ (Settings.contains_of_find? found)
  have same : (copy.get? "enabled").bind Tree.surface = (entry.get? "enabled").bind Tree.surface :=
    spells.surface_group_member (by decide) dotless (by decide) (by decide) found copied
  have enabled := builds.enabled
  rw [Settings.flag_eq same, disabled] at enabled
  cases enabled

/-- Rebuilding with an undivided spelling is rebuilding with the original. -/
theorem rebuild_eq_of_spells {registry : Registry δ} (reads : registry.types.ReadsSurface)
    (undividedCollapsed : (collapsed.under domainsPath).Undivided) :
    registry.rebuild collapsed = registry.rebuild nested := by
  have anonymous := Settings.flag_eq (spells.sameSurface anonymousPath (by decide)) false
  have domains := domainsOf_eq_of_spells spells undivided reads undividedCollapsed
  have chains : chainOf registry.types collapsed = chainOf registry.types nested := by
    unfold chainOf
    rw [anonymous, domains]
  unfold rebuild
  rw [chains]

end Spelling

/-- **Rebuilding with any spelling of a plain document.** Kinds that read their settings by typed
readings, among them all built-in ones, make a registry publish the chain of the document from every
spelling that leaves no object under a dotted key below `dynamic.authc`. These are exactly the
spellings with the groups of the document; in no other one has a disabled group a domain of its name
either. -/
theorem rebuild_of_spelling (σ : Type) [DocumentStore σ] {nested collapsed : Settings}
    (plain : nested.toTree.isPlain = true)
    (steps : Relation.ReflTransGen Tree.Lifts nested.toTree collapsed.toTree) :
    (TypeTable.builtin σ).ReadsSurface ∧
    ((∀ name, (collapsed.groups domainsPath).contains name = true ↔
        (nested.groups domainsPath).contains name = true) ↔
      (collapsed.under domainsPath).Undivided) ∧
    ∀ {δ : Type} (registry : Registry δ), registry.types.ReadsSurface →
      ((collapsed.under domainsPath).Undivided →
        registry.rebuild collapsed = registry.rebuild nested) ∧
      ∀ name entry, (nested.groups domainsPath).find? name = some entry →
        entry.flag "enabled" true = false →
        ∀ domain ∈ domainsOf registry.types collapsed, domain.name ≠ name := by
  have spells := Settings.spells_of_plain plain steps
  have undivided : (nested.under domainsPath).Undivided :=
    Settings.undivided_of_plain plain (by decide)
  refine ⟨TypeTable.readsSurface_builtin σ, same_groups_iff spells undivided,
    fun registry reads => ⟨?_, ?_⟩⟩
  · exact rebuild_eq_of_spells spells undivided reads
  · exact fun name entry => not_named_of_disabled spells undivided

/-- A document with a domain for users named by a proxy. -/
def nestedHall : Settings := .ofTree (.object [("dynamic", .object [("authc", .object [("hall",
  .object [("http_authenticator", .object [("type", .text "proxy")]), ("order", .int 2)])])])])

/-- The same domain in a mixed spelling. -/
def mixedHall : Settings := .ofTree (.object [("dynamic", .object [("authc", .object [("hall",
  .object [("order", .int 2)]), ("hall.http_authenticator.type", .text "proxy")])])])

theorem rebuild_mixedHall :
    let registry : Registry (Documents MemoryStore) := .ofTypes (.builtin MemoryStore)
    nestedHall.toTree.isPlain = true ∧
    Relation.ReflTransGen Tree.Lifts nestedHall.toTree mixedHall.toTree ∧
    registry.rebuild mixedHall = registry.rebuild nestedHall ∧
    (registry.rebuild mixedHall).2.chain.names = ["hall"] := by
  intro registry
  have plain : nestedHall.toTree.isPlain = true := rfl
  have steps : Relation.ReflTransGen Tree.Lifts nestedHall.toTree mixedHall.toTree := by
    have first : Tree.Lifts
        (.object [("http_authenticator", .object [("type", .text "proxy")]), ("order", .int 2)])
        (.object [("http_authenticator.type", .text "proxy"), ("order", .int 2)]) :=
      @Tree.Lifts.here _ [("type", .text "proxy")] "http_authenticator" "type" _ rfl rfl
    have second : Tree.Lifts
        (.object [("hall", .object [("http_authenticator.type", .text "proxy"), ("order", .int 2)])])
        (.object [("hall", .object [("order", .int 2)]),
          ("hall.http_authenticator.type", .text "proxy")]) :=
      @Tree.Lifts.here _ [("http_authenticator.type", .text "proxy"), ("order", .int 2)] "hall"
        "http_authenticator.type" _ rfl rfl
    exact .tail (.single first.only.only.only) second.only.only
  have spelling := rebuild_of_spelling MemoryStore plain steps
  have undivided : (mixedHall.under domainsPath).Undivided := by decide
  exact ⟨plain, steps, (spelling.2.2 registry spelling.1).1 undivided, by decide +kernel⟩

/-- A document with one disabled domain. -/
def nestedDesk : Settings := .ofTree (.object [("dynamic", .object [("authc", .object [("desk",
  .object [("enabled", .bool false), ("http_authenticator", .object [("type", .text "basic")])])])])])

/-- The same document with the object of its extractor moved up. -/
def joinedDesk : Settings := .ofTree (.object [("dynamic", .object [("authc", .object [("desk",
  .object [("enabled", .bool false)]),
  ("desk.http_authenticator", .object [("type", .text "basic")])])])])

/-- An object under a dotted key is a group of its own, and even gives a disabled group a domain. -/
theorem rebuild_joinedDesk :
    let registry : Registry (Documents MemoryStore) := .ofTypes (.builtin MemoryStore)
    nestedDesk.toTree.isPlain = true ∧
    Relation.ReflTransGen Tree.Lifts nestedDesk.toTree joinedDesk.toTree ∧
    (registry.rebuild nestedDesk).2.chain.names = ["default"] ∧
    (registry.rebuild joinedDesk).2.chain.names = ["desk.http_authenticator"] := by
  intro registry
  have step : Tree.Lifts
      (.object [("desk", .object [("enabled", .bool false),
        ("http_authenticator", .object [("type", .text "basic")])])])
      (.object [("desk", .object [("enabled", .bool false)]),
        ("desk.http_authenticator", .object [("type", .text "basic")])]) :=
    @Tree.Lifts.here _ [("enabled", .bool false),
      ("http_authenticator", .object [("type", .text "basic")])] "desk" "http_authenticator" _ rfl rfl
  exact ⟨rfl, .single step.only.only, by decide +kernel, by decide +kernel⟩

end Registry

end Gatehouse
