/-
**The first domain that decides.**

A chain is walked until one domain accepts credentials or asks for them. What "passes" means is said
here of a domain by itself, from its extractor, its flag and its backend, and the walk is shown to
stop exactly behind a stretch of passing domains.

* `Domain.Passes`, `Domain.Accepts`, `Domain.Asks`: the three things a domain can do with a request;
* `Reaches`: the domains before a domain all pass, and what they leave of the documents;
* `walk_eq_accepted_iff`, `walk_eq_asked_iff`, `walk_eq_exhausted_iff`: the walk in these terms;
* **`outcome_of_first_decisive`**: the outcome of a request whose session is not resumed.
-/

import Gatehouse.Access.Noop
import Gatehouse.Access.Proxy
import Gatehouse.Authentication
import Gatehouse.Chain.Registry

namespace Gatehouse

variable {δ : Type}

/-! ### One domain -/

namespace Domain

/-- The domain takes credentials from the request, and its backend accepts them as a caller. -/
def Accepts (domain : Domain δ) (now : Nat) (request : Request) (documents : δ)
    (identity : Identity) : Prop :=
  ∃ credentials, domain.extractor.extract now request = .ok (some credentials) ∧
    (domain.backend.authenticate credentials documents).1 = .ok identity

/-- The request carries nothing for the domain, which asks for credentials. -/
def Asks (domain : Domain δ) (now : Nat) (request : Request) (challenge : Challenge) : Prop :=
  domain.extractor.extract now request = .ok none ∧ domain.challenges = true ∧
    domain.extractor.challenge none = some challenge

/-- The domain leaves the request to the domains after it, with the documents as given last. -/
inductive Passes (domain : Domain δ) (now : Nat) (request : Request) (documents : δ) : δ → Prop
  /-- The extractor fails. -/
  | unreadable {error : AccessError} :
      domain.extractor.extract now request = .error error →
      Passes domain now request documents documents
  /-- There are no credentials, and the domain does not or cannot ask for them. -/
  | unasked :
      domain.extractor.extract now request = .ok none →
      domain.challenges = false ∨ domain.extractor.challenge none = none →
      Passes domain now request documents documents
  /-- The backend refuses the credentials, for whatever reason. -/
  | refused {credentials : Credentials} {error : AccessError} {later : δ} :
      domain.extractor.extract now request = .ok (some credentials) →
      domain.backend.authenticate credentials documents = (.error error, later) →
      Passes domain now request documents later

end Domain

/-! ### The trial of one domain -/

namespace Trial

variable {domain : Domain δ} {now : Nat} {request : Request} {documents : δ}

/-- A trial in one of three ways, each with what the domain does. -/
theorem ofDomain_cases (domain : Domain δ) (now : Nat) (request : Request) (documents : δ) :
    (∃ identity, (ofDomain domain now request documents).1 = .accepted identity ∧
        domain.Accepts now request documents identity) ∨
    (∃ challenge, (ofDomain domain now request documents).1 = .asked challenge ∧
        domain.Asks now request challenge) ∨
    (((ofDomain domain now request documents).1 = .silent ∨
        ∃ error, (ofDomain domain now request documents).1 = .failed error) ∧
      domain.Passes now request documents (ofDomain domain now request documents).2) := by
  unfold ofDomain
  cases extracted : domain.extractor.extract now request with
  | error error => exact Or.inr (Or.inr ⟨Or.inr ⟨error, rfl⟩, .unreadable extracted⟩)
  | ok found =>
    cases found with
    | none =>
      unfold ofSilence
      cases asks : domain.challenges with
      | false => exact Or.inr (Or.inr ⟨Or.inl rfl, .unasked extracted (Or.inl asks)⟩)
      | true =>
        cases offered : domain.extractor.challenge none with
        | none => exact Or.inr (Or.inr ⟨Or.inl rfl, .unasked extracted (Or.inr offered)⟩)
        | some challenge => exact Or.inr (Or.inl ⟨challenge, rfl, extracted, asks, offered⟩)
    | some credentials =>
      cases verdict : domain.backend.authenticate credentials documents with
      | mk result later =>
        cases result with
        | ok identity =>
          exact Or.inl ⟨identity, by simp [verdict], credentials, extracted, by rw [verdict]⟩
        | error error =>
          refine Or.inr (Or.inr ⟨Or.inr ⟨error, by simp [verdict]⟩, ?_⟩)
          simp only [verdict]
          exact .refused extracted verdict

theorem ofDomain_of_accepts {identity : Identity}
    (accepts : domain.Accepts now request documents identity) :
    (ofDomain domain now request documents).1 = .accepted identity := by
  obtain ⟨credentials, extracted, accepted⟩ := accepts
  cases verdict : domain.backend.authenticate credentials documents with
  | mk result later =>
    rw [verdict] at accepted
    obtain rfl : result = .ok identity := accepted
    simp only [ofDomain, extracted, verdict]

theorem ofDomain_of_asks {challenge : Challenge} (asks : domain.Asks now request challenge) :
    (ofDomain domain now request documents).1 = .asked challenge := by
  obtain ⟨extracted, challenges, offered⟩ := asks
  unfold ofDomain
  rw [extracted]
  show ofSilence domain = _
  unfold ofSilence
  rw [if_pos challenges, offered]

/-- A domain that passes does not decide, and leaves the documents as it says. -/
theorem ofDomain_of_passes {later : δ} (passes : domain.Passes now request documents later) :
    ((ofDomain domain now request documents).1 = .silent ∨
      ∃ error, (ofDomain domain now request documents).1 = .failed error) ∧
    (ofDomain domain now request documents).2 = later := by
  unfold ofDomain
  cases passes with
  | unreadable extracted => rw [extracted]; exact ⟨Or.inr ⟨_, rfl⟩, rfl⟩
  | unasked extracted quiet =>
    rw [extracted]
    refine ⟨Or.inl ?_, rfl⟩
    show ofSilence domain = _
    unfold ofSilence
    rcases quiet with off | mute
    · rw [off]; rfl
    · rw [mute]; split <;> rfl
  | refused extracted verdict => rw [extracted]; simp [verdict]

end Trial

/-! ### Stretches of passing domains -/

/-- Every domain of a stretch passes, each on the documents that the one before it leaves. -/
inductive AllPass (now : Nat) (request : Request) : List (Domain δ) → δ → δ → Prop
  | nil (documents : δ) : AllPass now request [] documents documents
  | cons {domain : Domain δ} {rest : List (Domain δ)} {documents between later : δ} :
      domain.Passes now request documents between → AllPass now request rest between later →
      AllPass now request (domain :: rest) documents later

/-- The walk reaches a domain: all domains before it pass. -/
def Reaches (now : Nat) (request : Request) (domains : List (Domain δ)) (documents : δ)
    (domain : Domain δ) (reached : δ) : Prop :=
  ∃ before after, domains = before ++ domain :: after ∧
    AllPass now request before documents reached

theorem reaches_cons_iff {now : Nat} {request : Request} {first domain : Domain δ}
    {rest : List (Domain δ)} {documents reached : δ} :
    Reaches now request (first :: rest) documents domain reached ↔
      (domain = first ∧ reached = documents) ∨
      ∃ between, first.Passes now request documents between ∧
        Reaches now request rest between domain reached := by
  constructor
  · rintro ⟨before, after, split, passed⟩
    cases passed with
    | nil => cases split; exact Or.inl ⟨rfl, rfl⟩
    | cons here there => cases split; exact Or.inr ⟨_, here, _, after, rfl, there⟩
  · rintro (⟨rfl, rfl⟩ | ⟨between, here, before, after, rfl, there⟩)
    · exact ⟨[], rest, rfl, .nil _⟩
    · exact ⟨first :: before, after, rfl, .cons here there⟩

theorem Reaches.mem {now : Nat} {request : Request} {domains : List (Domain δ)}
    {documents reached : δ} {domain : Domain δ}
    (reaches : Reaches now request domains documents domain reached) : domain ∈ domains := by
  obtain ⟨before, after, rfl, _⟩ := reaches
  simp

/-! ### The walk -/

namespace Decision

variable {now : Nat} {request : Request}

/-- The walk of a chain whose first domain passes is the walk of the others. -/
theorem walk_cons_of_passes {domain : Domain δ} {rest : List (Domain δ)} {documents later : δ}
    (passes : domain.Passes now request documents later) :
    (walk now request (domain :: rest) documents).1 = (walk now request rest later).1 := by
  obtain ⟨undecided, left⟩ := Trial.ofDomain_of_passes passes
  rw [walk]
  rcases undecided with silent | ⟨error, failed⟩
  · simp only [silent, left]
  · simp only [failed, left]

theorem walk_cons_of_accepts {domain : Domain δ} {rest : List (Domain δ)} {documents : δ}
    {identity : Identity} (accepts : domain.Accepts now request documents identity) :
    (walk now request (domain :: rest) documents).1 = .accepted domain.name identity := by
  rw [walk]
  simp only [Trial.ofDomain_of_accepts accepts]

theorem walk_cons_of_asks {domain : Domain δ} {rest : List (Domain δ)} {documents : δ}
    {challenge : Challenge} (asks : domain.Asks now request challenge) :
    (walk now request (domain :: rest) documents).1 = .asked domain.name challenge := by
  rw [walk]
  simp only [Trial.ofDomain_of_asks asks]

/-- A walk ends behind a stretch of passing domains: at a domain that accepts, at one that asks, or
behind the last one. -/
theorem walk_cases (now : Nat) (request : Request) (domains : List (Domain δ)) (documents : δ) :
    (∃ domain reached identity, Reaches now request domains documents domain reached ∧
        domain.Accepts now request reached identity ∧
        (walk now request domains documents).1 = .accepted domain.name identity) ∨
    (∃ domain reached challenge, Reaches now request domains documents domain reached ∧
        domain.Asks now request challenge ∧
        (walk now request domains documents).1 = .asked domain.name challenge) ∨
    (∃ later, AllPass now request domains documents later ∧
        (walk now request domains documents).1 = .exhausted) := by
  induction domains generalizing documents with
  | nil => exact Or.inr (Or.inr ⟨documents, .nil _, rfl⟩)
  | cons first rest ih =>
    rcases Trial.ofDomain_cases first now request documents with
      ⟨identity, _, accepts⟩ | ⟨challenge, _, asks⟩ | ⟨_, passes⟩
    · exact Or.inl ⟨first, documents, identity, reaches_cons_iff.mpr (Or.inl ⟨rfl, rfl⟩), accepts,
        walk_cons_of_accepts accepts⟩
    · exact Or.inr (Or.inl ⟨first, documents, challenge,
        reaches_cons_iff.mpr (Or.inl ⟨rfl, rfl⟩), asks, walk_cons_of_asks asks⟩)
    · rw [walk_cons_of_passes passes]
      rcases ih (Trial.ofDomain first now request documents).2 with
        ⟨domain, reached, identity, reaches, accepts, result⟩ |
        ⟨domain, reached, challenge, reaches, asks, result⟩ | ⟨later, passed, result⟩
      · exact Or.inl ⟨domain, reached, identity,
          reaches_cons_iff.mpr (Or.inr ⟨_, passes, reaches⟩), accepts, result⟩
      · exact Or.inr (Or.inl ⟨domain, reached, challenge,
          reaches_cons_iff.mpr (Or.inr ⟨_, passes, reaches⟩), asks, result⟩)
      · exact Or.inr (Or.inr ⟨later, .cons passes passed, result⟩)

theorem walk_of_reaches {domains : List (Domain δ)} {documents reached : δ} {domain : Domain δ}
    (reaches : Reaches now request domains documents domain reached) :
    ∃ rest, (walk now request domains documents).1 =
      (walk now request (domain :: rest) reached).1 := by
  induction domains generalizing documents with
  | nil => obtain ⟨before, after, split, _⟩ := reaches; simp at split
  | cons first rest ih =>
    rcases reaches_cons_iff.mp reaches with ⟨rfl, rfl⟩ | ⟨between, passes, later⟩
    · exact ⟨rest, rfl⟩
    · rw [walk_cons_of_passes passes]
      exact ih later

theorem walk_of_allPass {domains : List (Domain δ)} {documents later : δ}
    (passed : AllPass now request domains documents later) :
    (walk now request domains documents).1 = .exhausted := by
  induction passed with
  | nil documents => rfl
  | cons here _ ih => rw [walk_cons_of_passes here, ih]

theorem walk_eq_accepted_iff {domains : List (Domain δ)} {documents : δ} {name : String}
    {identity : Identity} :
    (walk now request domains documents).1 = .accepted name identity ↔
      ∃ domain reached, Reaches now request domains documents domain reached ∧
        domain.name = name ∧ domain.Accepts now request reached identity := by
  constructor
  · intro decided
    rcases walk_cases now request domains documents with
      ⟨domain, reached, other, reaches, accepts, result⟩ | ⟨_, _, _, _, _, result⟩ | ⟨_, _, result⟩
    · rw [decided] at result
      cases result
      exact ⟨domain, reached, reaches, rfl, accepts⟩
    · rw [decided] at result; cases result
    · rw [decided] at result; cases result
  · rintro ⟨domain, reached, reaches, rfl, accepts⟩
    obtain ⟨rest, same⟩ := walk_of_reaches reaches
    rw [same, walk_cons_of_accepts accepts]

theorem walk_eq_asked_iff {domains : List (Domain δ)} {documents : δ} {name : String}
    {challenge : Challenge} :
    (walk now request domains documents).1 = .asked name challenge ↔
      ∃ domain reached, Reaches now request domains documents domain reached ∧
        domain.name = name ∧ domain.Asks now request challenge := by
  constructor
  · intro decided
    rcases walk_cases now request domains documents with
      ⟨_, _, _, _, _, result⟩ | ⟨domain, reached, other, reaches, asks, result⟩ | ⟨_, _, result⟩
    · rw [decided] at result; cases result
    · rw [decided] at result
      cases result
      exact ⟨domain, reached, reaches, rfl, asks⟩
    · rw [decided] at result; cases result
  · rintro ⟨domain, reached, reaches, rfl, asks⟩
    obtain ⟨rest, same⟩ := walk_of_reaches reaches
    rw [same, walk_cons_of_asks asks]

theorem walk_eq_exhausted_iff {domains : List (Domain δ)} {documents : δ} :
    (walk now request domains documents).1 = .exhausted ↔
      ∃ later, AllPass now request domains documents later := by
  constructor
  · intro decided
    rcases walk_cases now request domains documents with
      ⟨_, _, _, _, _, result⟩ | ⟨_, _, _, _, _, result⟩ | ⟨later, passed, _⟩
    · rw [decided] at result; cases result
    · rw [decided] at result; cases result
    · exact ⟨later, passed⟩
  · rintro ⟨later, passed⟩
    exact walk_of_allPass passed

end Decision

/-! ### The outcome -/

namespace AccessState

variable {τ : Type} [SessionStore τ]

theorem documents_resume (moment : Moment) (request : Request) (state : AccessState δ τ) :
    (state.resume moment request).2.documents = state.documents := by
  unfold resume
  split <;> rfl

/-- A session is issued from the sessions alone, whatever else has changed. -/
theorem issue_of_sessions_eq {state other : AccessState δ τ} (same : state.sessions = other.sessions)
    (moment : Moment) (identity : Identity) :
    (state.issue moment identity).1 = (other.issue moment identity).1 := by
  unfold issue
  rw [same]
  cases other.sessions <;> rfl

theorem conclude_eq_authenticated_iff {moment : Moment} {anonymous : Bool}
    {state : AccessState δ τ} {decision : Decision} {name : String} {identity : Identity}
    {session : Option Session} :
    (conclude moment anonymous state decision).1 = .authenticated identity session (some name) ↔
      decision = .accepted name identity ∧ session = (state.issue moment identity).1 := by
  cases decision with
  | accepted domain caller =>
    show Outcome.authenticated caller (state.issue moment caller).1 (some domain) = _ ↔ _
    simp only [Outcome.authenticated.injEq, Decision.accepted.injEq, Option.some.injEq]
    constructor
    · rintro ⟨rfl, rfl, rfl⟩; exact ⟨⟨rfl, rfl⟩, rfl⟩
    · rintro ⟨⟨rfl, rfl⟩, rfl⟩; exact ⟨rfl, rfl, rfl⟩
  | asked domain challenge => simp [conclude]
  | exhausted => cases anonymous <;> simp [conclude]

theorem conclude_eq_challenged_iff {moment : Moment} {anonymous : Bool} {state : AccessState δ τ}
    {decision : Decision} {name : String} {challenge : Challenge} :
    (conclude moment anonymous state decision).1 = .challenged name challenge ↔
      decision = .asked name challenge := by
  cases decision with
  | accepted domain caller => simp [conclude]
  | asked domain offered => simp [conclude]
  | exhausted => cases anonymous <;> simp [conclude]

theorem conclude_eq_unnamed_iff {moment : Moment} {anonymous : Bool} {state : AccessState δ τ}
    {decision : Decision} {identity : Identity} {session : Option Session} :
    (conclude moment anonymous state decision).1 = .authenticated identity session none ↔
      decision = .exhausted ∧ anonymous = true ∧ identity = .anonymous ∧ session = none := by
  cases decision with
  | accepted domain caller => simp [conclude]
  | asked domain offered => simp [conclude]
  | exhausted => cases anonymous <;> simp [conclude, eq_comm]

theorem conclude_eq_rejected_iff {moment : Moment} {anonymous : Bool} {state : AccessState δ τ}
    {decision : Decision} :
    (conclude moment anonymous state decision).1 = .rejected ↔
      decision = .exhausted ∧ anonymous = false := by
  cases decision with
  | accepted domain caller => simp [conclude]
  | asked domain offered => simp [conclude]
  | exhausted => cases anonymous <;> simp [conclude]

theorem conclude_ne_unavailable {moment : Moment} {anonymous : Bool} {state : AccessState δ τ}
    {decision : Decision} : (conclude moment anonymous state decision).1 ≠ .unavailable := by
  cases decision with
  | accepted domain caller => simp [conclude]
  | asked domain offered => simp [conclude]
  | exhausted => cases anonymous <;> simp [conclude]

/-- Without a resumed session the outcome is concluded from what the walk of the chain decides, by a
state with the sessions that looking for one has left. -/
theorem authenticate_of_not_resumed (chain : Chain δ) {moment : Moment} {request : Request}
    {state : AccessState δ τ} (fresh : (state.resume moment request).1 = none) :
    ∃ walked : AccessState δ τ, walked.sessions = (state.resume moment request).2.sessions ∧
      (state.authenticate moment request (some chain)).1 =
        (conclude moment chain.anonymous walked
          (Decision.walk moment.now request chain.domains state.documents).1).1 := by
  have kept := documents_resume moment request state
  unfold authenticate
  cases resumed : state.resume moment request with
  | mk found left =>
    rw [resumed] at fresh kept
    simp only at fresh kept
    subst fresh
    rw [← kept]
    let walked := Decision.walk moment.now request chain.domains left.documents
    exact ⟨({ left with documents := walked.2.2 } : AccessState δ τ).record walked.2.1, rfl, rfl⟩

section Fresh

variable {moment : Moment} {request : Request} {chain : Chain δ} {state : AccessState δ τ}

theorem authenticate_eq_named_iff (fresh : (state.resume moment request).1 = none) {name : String}
    {identity : Identity} {session : Option Session} :
    (state.authenticate moment request (some chain)).1 =
        .authenticated identity session (some name) ↔
      (∃ domain reached,
        Reaches moment.now request chain.domains state.documents domain reached ∧
        domain.name = name ∧ domain.Accepts moment.now request reached identity) ∧
      session = ((state.resume moment request).2.issue moment identity).1 := by
  obtain ⟨walked, sessions, concluded⟩ := authenticate_of_not_resumed chain fresh
  rw [concluded, conclude_eq_authenticated_iff, Decision.walk_eq_accepted_iff,
    issue_of_sessions_eq sessions]

theorem authenticate_eq_challenged_iff (fresh : (state.resume moment request).1 = none)
    {name : String} {challenge : Challenge} :
    (state.authenticate moment request (some chain)).1 = .challenged name challenge ↔
      ∃ domain reached, Reaches moment.now request chain.domains state.documents domain reached ∧
        domain.name = name ∧ domain.Asks moment.now request challenge := by
  obtain ⟨walked, _, concluded⟩ := authenticate_of_not_resumed chain fresh
  rw [concluded, conclude_eq_challenged_iff, Decision.walk_eq_asked_iff]

theorem authenticate_eq_unnamed_iff (fresh : (state.resume moment request).1 = none)
    {identity : Identity} {session : Option Session} :
    (state.authenticate moment request (some chain)).1 = .authenticated identity session none ↔
      (∃ later, AllPass moment.now request chain.domains state.documents later) ∧
        chain.anonymous = true ∧ identity = .anonymous ∧ session = none := by
  obtain ⟨walked, _, concluded⟩ := authenticate_of_not_resumed chain fresh
  rw [concluded, conclude_eq_unnamed_iff, Decision.walk_eq_exhausted_iff]

theorem authenticate_eq_rejected_iff (fresh : (state.resume moment request).1 = none) :
    (state.authenticate moment request (some chain)).1 = .rejected ↔
      (∃ later, AllPass moment.now request chain.domains state.documents later) ∧
        chain.anonymous = false := by
  obtain ⟨walked, _, concluded⟩ := authenticate_of_not_resumed chain fresh
  rw [concluded, conclude_eq_rejected_iff, Decision.walk_eq_exhausted_iff]

end Fresh

/-- Only a request whose session is not resumed is authenticated by a domain. -/
theorem resume_eq_none_of_named {moment : Moment} {request : Request} {chain : Chain δ}
    {state : AccessState δ τ} {identity : Identity} {session : Option Session} {name : String}
    (authenticated : (state.authenticate moment request (some chain)).1 =
      .authenticated identity session (some name)) : (state.resume moment request).1 = none := by
  unfold authenticate at authenticated
  cases resumed : state.resume moment request with
  | mk found left =>
    cases found with
    | none => rfl
    | some pair => rw [resumed] at authenticated; cases authenticated

/-- **The first domain that decides.** Take a registry with a published chain and a request whose
session is not resumed. A domain is named as the one that authenticates exactly when the walk reaches
it, it takes credentials and its backend accepts them, with the backend's caller and a newly issued
session; it is named in a challenge exactly when the walk reaches it and it asks, with its own
challenge. When every domain passes, the request is granted the anonymous identity or rejected, as
the chain says. There is no other outcome. -/
theorem outcome_of_first_decisive (registry : Registry δ)
    (initialized : registry.isInitialized = true) {moment : Moment} {request : Request}
    {state : AccessState δ τ} (fresh : (state.resume moment request).1 = none) :
    let outcome := (state.authenticate moment request registry.published).1
    let domains := registry.chain.domains
    (∀ name identity session, outcome = .authenticated identity session (some name) ↔
      (∃ domain reached,
        Reaches moment.now request domains state.documents domain reached ∧
        domain.name = name ∧ domain.Accepts moment.now request reached identity) ∧
      session = ((state.resume moment request).2.issue moment identity).1) ∧
    (∀ name challenge, outcome = .challenged name challenge ↔
      ∃ domain reached, Reaches moment.now request domains state.documents domain reached ∧
        domain.name = name ∧ domain.Asks moment.now request challenge) ∧
    (∀ identity session, outcome = .authenticated identity session none ↔
      (∃ later, AllPass moment.now request domains state.documents later) ∧
        registry.chain.anonymous = true ∧ identity = .anonymous ∧ session = none) ∧
    (outcome = .rejected ↔
      (∃ later, AllPass moment.now request domains state.documents later) ∧
        registry.chain.anonymous = false) ∧
    outcome ≠ .unavailable := by
  obtain ⟨chain, published⟩ := Option.isSome_iff_exists.mp initialized
  have current : registry.chain = chain := by rw [Registry.chain, published]; rfl
  rw [published, current]
  refine ⟨fun _ _ _ => authenticate_eq_named_iff fresh,
    fun _ _ => authenticate_eq_challenged_iff fresh,
    fun _ _ => authenticate_eq_unnamed_iff fresh, authenticate_eq_rejected_iff fresh, ?_⟩
  obtain ⟨walked, _, concluded⟩ := authenticate_of_not_resumed chain fresh
  rw [concluded]
  exact conclude_ne_unavailable

/-- A domain that asks nobody for credentials, and behind it one that does. -/
def silentThenAsking : Chain Unit where
  domains := [⟨"front", 0, true, Proxy.extractor "x-user" "x-roles", Noop.backend Unit⟩,
    ⟨"desk", 1, true, Basic.extractor "hall", Noop.backend Unit⟩]
  anonymous := true
  sorted := by simp [Domain.isAtMost]

/-- A request without credentials passes the domain that cannot ask and is asked by the other. -/
theorem outcome_of_silentThenAsking :
    (authenticate ⟨0, ⟨Vector.replicate 32 0⟩⟩ .blank (some silentThenAsking)
        (⟨(), some ⟨60, [], .nil⟩, .empty⟩ : AccessState Unit MemorySessions)).1 =
      .challenged "desk" (.wwwAuthenticate "Basic realm=\"hall\"") := by
  refine ((outcome_of_first_decisive ⟨.empty, some silentThenAsking⟩ rfl rfl).2.1 _ _).mpr
    ⟨silentThenAsking.domains[1], (), ⟨[silentThenAsking.domains[0]], [], rfl, ?_⟩, rfl, rfl, rfl,
      rfl⟩
  exact .cons (.unasked rfl (Or.inr rfl)) (.nil _)

end AccessState

end Gatehouse
