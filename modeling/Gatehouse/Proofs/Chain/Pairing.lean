/-
**Nobody is let in without proof.**

The built-in extractors and backends can be paired at will. An extractor either takes a secret or
establishes the user; a backend either compares a secret or takes the word of the extractor. Only two
of the kinds of pairings can let anybody in, and each for its own reason.

* `PasswordLogin`, `HeaderLogin`, `TokenLogin`: the reasons for which a caller is let in;
* `accepts_of_builtin`: a built-in domain lets nobody in for another reason;
* **`authenticated_by_proof`**: the same of a chain of built-in domains and its outcomes.
-/

import Gatehouse.Proofs.Access.Login
import Gatehouse.Proofs.Chain.Walk

set_option linter.unusedSectionVars false

namespace Gatehouse

open Text (Bytes)

/-! ### Built-in parts -/

/-- The built-in extractors. -/
inductive Extractor.Builtin : Extractor → Prop
  | basic (realm : String) : Builtin (Basic.extractor realm)
  | proxy (userHeader rolesHeader : String) : Builtin (Proxy.extractor userHeader rolesHeader)
  | bearer (rules : Bearer.Rules) : Builtin rules.extractor

/-- The built-in extractors that establish the user themselves. -/
inductive Extractor.Establishes : Extractor → Prop
  | proxy (userHeader rolesHeader : String) : Establishes (Proxy.extractor userHeader rolesHeader)
  | bearer (rules : Bearer.Rules) : Establishes rules.extractor

variable {σ τ : Type} [DocumentStore σ]

/-- The built-in backends. -/
inductive Backend.Builtin : Backend (Documents σ) → Prop
  | internal : Builtin (Internal.backend σ)
  | noop : Builtin (Noop.backend (Documents σ))

namespace Domain

variable {domain : Domain (Documents σ)} {now : Nat} {request : Request}
  {documents : Documents σ} {identity : Identity}

/-- Both parts of a domain are built in. -/
structure Builtin (domain : Domain (Documents σ)) : Prop where
  extractor : domain.extractor.Builtin
  backend : domain.backend.Builtin

/-- The parts of a domain do not fit: a secret that nothing compares, or an established user whose
secret is asked for. -/
inductive Mismatched (domain : Domain (Documents σ)) : Prop
  | unverified (realm : String) : domain.extractor = Basic.extractor realm →
      domain.backend = Noop.backend (Documents σ) → Mismatched domain
  | unsecret : domain.extractor.Establishes → domain.backend = Internal.backend σ →
      Mismatched domain

/-! ### Reasons to let a caller in -/

/-- The header of the request holds the name of the caller and a secret that is not empty, the
users have an entry of that name whose hash the secret gives, and the roles are those of the entry. -/
def PasswordLogin (domain : Domain (Documents σ)) (request : Request) (documents : Documents σ)
    (identity : Identity) : Prop :=
  (∃ realm, domain.extractor = Basic.extractor realm) ∧ domain.backend = Internal.backend σ ∧
    ∃ secret users entry, Basic.Presents request identity.username secret ∧ secret ≠ [] ∧
      (documents.get usersType).1 = .ok (some users) ∧
      Internal.findUser users identity.username = some entry ∧
      Password.verify secret entry.hash = .ok true ∧
      identity = .ofRoles identity.username entry.roles

/-- The trusted headers of the request name the caller and list its roles. -/
def HeaderLogin (domain : Domain (Documents σ)) (request : Request) (identity : Identity) : Prop :=
  ∃ userHeader rolesHeader, domain.extractor = Proxy.extractor userHeader rolesHeader ∧
    domain.backend = Noop.backend (Documents σ) ∧
    ∃ value, request.header? userHeader = some value ∧ Text.trim value ≠ "" ∧
      identity = .ofRoles (Text.trim value)
        (((request.header? rolesHeader).map Text.commaList).getD [])

/-- The request has a token that is accepted, and its claims name the caller and list its roles. -/
def TokenLogin (domain : Domain (Documents σ)) (now : Nat) (request : Request)
    (identity : Identity) : Prop :=
  ∃ rules : Bearer.Rules, domain.extractor = rules.extractor ∧
    domain.backend = Noop.backend (Documents σ) ∧
    ∃ token claims user, Bearer.Rules.token? request = some token ∧
      rules.accept now token = .ok claims ∧ claims.user? rules.subjectName = some user ∧
      identity = .ofRoles user (claims.roles rules.rolesName)

/-! ### What each pairing accepts -/

theorem accepts_internal_iff (internal : domain.backend = Internal.backend σ) :
    domain.Accepts now request documents identity ↔
      ∃ credentials users entry secret,
        domain.extractor.extract now request = .ok (some credentials) ∧
        (documents.get usersType).1 = .ok (some users) ∧
        Internal.findUser users credentials.username = some entry ∧
        credentials.evidence = .secret secret ∧ secret ≠ [] ∧
        Password.verify secret entry.hash = .ok true ∧
        identity = .ofRoles credentials.username entry.roles := by
  unfold Accepts
  rw [internal]
  constructor
  · rintro ⟨credentials, extracted, accepted⟩
    obtain ⟨users, entry, secret, rest⟩ := Internal.authenticate_eq_ok_iff.mp accepted
    exact ⟨credentials, users, entry, secret, extracted, rest⟩
  · rintro ⟨credentials, users, entry, secret, extracted, rest⟩
    exact ⟨credentials, extracted,
      Internal.authenticate_eq_ok_iff.mpr ⟨users, entry, secret, rest⟩⟩

theorem accepts_noop_iff (noop : domain.backend = Noop.backend (Documents σ)) :
    domain.Accepts now request documents identity ↔
      ∃ credentials, domain.extractor.extract now request = .ok (some credentials) ∧
        credentials.username ≠ "" ∧ credentials.evidence = .established ∧
        identity = ⟨credentials.username, credentials.roles⟩ := by
  unfold Accepts
  rw [noop]
  exact exists_congr fun credentials => and_congr_right fun _ => Noop.authenticate_eq_ok_iff

/-- An extractor that establishes users gives established users only. -/
theorem evidence_of_establishes {extractor : Extractor} (establishes : extractor.Establishes)
    {credentials : Credentials} (extracted : extractor.extract now request = .ok (some credentials)) :
    credentials.evidence = .established := by
  cases establishes with
  | proxy userHeader rolesHeader =>
    obtain ⟨value, _, _, rfl⟩ := Proxy.extract_eq_some_iff.mp (Except.ok.inj extracted)
    rfl
  | bearer rules =>
    obtain ⟨token, claims, _, _, established⟩ := Bearer.Rules.extract_eq_some extracted
    exact (Bearer.Rules.credentials_eq_ok established).2.1

/-- **Parts that do not fit let nobody in**, whatever the request and the users. -/
theorem not_accepts_of_mismatched (mismatched : domain.Mismatched) :
    ¬ domain.Accepts now request documents identity := by
  intro accepts
  cases mismatched with
  | unverified realm basic noop =>
    obtain ⟨credentials, extracted, _, established, _⟩ := (accepts_noop_iff noop).mp accepts
    rw [basic] at extracted
    obtain ⟨username, secret, _, _, rfl⟩ := Basic.extract_eq_some_iff.mp extracted
    cases established
  | unsecret establishes internal =>
    obtain ⟨credentials, _, _, secret, extracted, _, _, carried, _⟩ :=
      (accepts_internal_iff internal).mp accepts
    rw [evidence_of_establishes establishes extracted] at carried
    cases carried

theorem passwordLogin_of_accepts {realm : String} (basic : domain.extractor = Basic.extractor realm)
    (internal : domain.backend = Internal.backend σ)
    (accepts : domain.Accepts now request documents identity) :
    domain.PasswordLogin request documents identity := by
  obtain ⟨credentials, users, entry, secret, extracted, read, located, carried, nonempty, verified,
    rfl⟩ := (accepts_internal_iff internal).mp accepts
  rw [basic] at extracted
  obtain ⟨username, presented, presents, _, rfl⟩ := Basic.extract_eq_some_iff.mp extracted
  cases carried
  exact ⟨⟨realm, basic⟩, internal, secret, users, entry, presents, nonempty, read, located, verified,
    rfl⟩

theorem headerLogin_of_accepts {userHeader rolesHeader : String}
    (proxy : domain.extractor = Proxy.extractor userHeader rolesHeader)
    (noop : domain.backend = Noop.backend (Documents σ))
    (accepts : domain.Accepts now request documents identity) :
    domain.HeaderLogin request identity := by
  obtain ⟨credentials, extracted, _, _, rfl⟩ := (accepts_noop_iff noop).mp accepts
  rw [proxy] at extracted
  obtain ⟨value, present, named, rfl⟩ := Proxy.extract_eq_some_iff.mp (Except.ok.inj extracted)
  refine ⟨userHeader, rolesHeader, proxy, noop, value, present, named, ?_⟩
  rw [Credentials.roles_addRoles_established]
  rfl

theorem tokenLogin_of_accepts {rules : Bearer.Rules} (bearer : domain.extractor = rules.extractor)
    (noop : domain.backend = Noop.backend (Documents σ))
    (accepts : domain.Accepts now request documents identity) :
    domain.TokenLogin now request identity := by
  obtain ⟨credentials, extracted, _, _, rfl⟩ := (accepts_noop_iff noop).mp accepts
  rw [bearer] at extracted
  obtain ⟨token, claims, present, accepted, established⟩ := Bearer.Rules.extract_eq_some extracted
  obtain ⟨named, _, roles⟩ := Bearer.Rules.credentials_eq_ok established
  exact ⟨rules, bearer, noop, token, claims, credentials.username, present, accepted, named, by
    rw [roles]; rfl⟩

/-- A built-in domain lets a caller in for one of the three reasons. -/
theorem accepts_of_builtin (builtin : domain.Builtin)
    (accepts : domain.Accepts now request documents identity) :
    domain.PasswordLogin request documents identity ∨ domain.HeaderLogin request identity ∨
      domain.TokenLogin now request identity := by
  obtain ⟨extractor, backend⟩ := builtin
  generalize shape : domain.extractor = taken at extractor
  generalize verdict : domain.backend = verifier at backend
  cases extractor with
  | basic realm =>
    cases backend with
    | internal => exact Or.inl (passwordLogin_of_accepts shape verdict accepts)
    | noop => exact (not_accepts_of_mismatched (.unverified realm shape verdict) accepts).elim
  | proxy userHeader rolesHeader =>
    cases backend with
    | internal =>
      exact (not_accepts_of_mismatched (.unsecret (shape ▸ .proxy _ _) verdict) accepts).elim
    | noop => exact Or.inr (Or.inl (headerLogin_of_accepts shape verdict accepts))
  | bearer rules =>
    cases backend with
    | internal =>
      exact (not_accepts_of_mismatched (.unsecret (shape ▸ .bearer _) verdict) accepts).elim
    | noop => exact Or.inr (Or.inr (tokenLogin_of_accepts shape verdict accepts))

end Domain

/-! ### Chains of built-in domains -/

namespace AccessState

variable [SessionStore τ]

/-- **Nobody is let in without proof.** When a chain of built-in domains authenticates a request by a
domain, the walk has reached that domain, and either its header presented a secret that is not empty
and gives the stored hash of the caller, with the roles stored beside it; or trusted headers named the
caller and its roles; or an accepted token did. Domains whose parts do not fit authenticate nobody. -/
theorem authenticated_by_proof {chain : Chain (Documents σ)}
    (builtin : ∀ domain ∈ chain.domains, domain.Builtin) (moment : Moment) (request : Request)
    (state : AccessState (Documents σ) τ) :
    let outcome := (state.authenticate moment request (some chain)).1
    (∀ name identity session, outcome = .authenticated identity session (some name) →
      ∃ domain reached,
        Reaches moment.now request chain.domains state.documents domain reached ∧
        domain.name = name ∧
        (domain.PasswordLogin request reached identity ∨ domain.HeaderLogin request identity ∨
          domain.TokenLogin moment.now request identity)) ∧
    (∀ name, (∀ domain ∈ chain.domains, domain.name = name → domain.Mismatched) →
      ∀ identity session, outcome ≠ .authenticated identity session (some name)) := by
  intro outcome
  have located : ∀ name identity session,
      outcome = .authenticated identity session (some name) → ∃ domain reached,
        Reaches moment.now request chain.domains state.documents domain reached ∧
        domain.name = name ∧ domain.Accepts moment.now request reached identity := by
    intro name identity session authenticated
    have fresh := resume_eq_none_of_named authenticated
    exact ((authenticate_eq_named_iff fresh).mp authenticated).1
  refine ⟨fun name identity session authenticated => ?_, fun name unfit identity session
    authenticated => ?_⟩
  · obtain ⟨domain, reached, reaches, named, accepts⟩ := located name identity session authenticated
    exact ⟨domain, reached, reaches, named,
      Domain.accepts_of_builtin (builtin domain reaches.mem) accepts⟩
  · obtain ⟨domain, reached, reaches, named, accepts⟩ := located name identity session authenticated
    exact Domain.not_accepts_of_mismatched (unfit domain reaches.mem named) accepts

/-- A domain that takes secrets which nothing compares, and behind it one that trusts a proxy. -/
def unverifiedThenTrusted : Chain (Documents MemoryStore) where
  domains := [⟨"desk", 0, false, Basic.extractor "hall", Noop.backend _⟩,
    ⟨"front", 1, true, Proxy.extractor "x-user" "x-roles", Noop.backend _⟩]
  anonymous := false
  sorted := by simp [Domain.isAtMost]

/-- A request in which a proxy names a user. -/
def requestOfSpock : Request := ⟨Table.empty.put "x-user" "spock", none, "", "", none⟩

/-- The trusted header lets its user in; the domain before it lets nobody in. -/
theorem unverifiedThenTrusted_of_spock :
    let moment : Moment := ⟨0, ⟨Vector.replicate 32 0⟩⟩
    let state : AccessState (Documents MemoryStore) MemorySessions :=
      ⟨.ofStore .empty, none, .empty⟩
    let spock := Identity.ofRoles "spock" []
    let outcome := (state.authenticate moment requestOfSpock (some unverifiedThenTrusted)).1
    outcome = .authenticated spock none (some "front") ∧
    (∃ domain reached,
      Reaches 0 requestOfSpock unverifiedThenTrusted.domains state.documents domain reached ∧
      domain.name = "front" ∧
      (domain.PasswordLogin requestOfSpock reached spock ∨ domain.HeaderLogin requestOfSpock spock ∨
        domain.TokenLogin 0 requestOfSpock spock)) ∧
    ∀ identity session, outcome ≠ .authenticated identity session (some "desk") := by
  intro moment state spock outcome
  have builtin : ∀ domain ∈ unverifiedThenTrusted.domains, domain.Builtin := by
    intro domain member
    rcases List.mem_cons.mp member with rfl | later
    · exact ⟨.basic _, .noop⟩
    · rw [List.mem_singleton.mp later]
      exact ⟨.proxy _ _, .noop⟩
  have proof := authenticated_by_proof builtin moment requestOfSpock state
  refine ⟨rfl, proof.1 "front" spock none rfl, proof.2 "desk" fun domain member named => ?_⟩
  rcases List.mem_cons.mp member with rfl | later
  · exact .unverified "hall" rfl rfl
  · rw [List.mem_singleton.mp later] at named
    exact absurd named (by decide)

end AccessState

end Gatehouse
