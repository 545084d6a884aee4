/-
**Whether a user exists, and whether it may enter.**

The backend over the internal users answers two questions: whether a user has an entry, and which
caller credentials stand for. Both read the document of users, and reading it may open the gate to the
store and fill the cache. Over a store that stays as it is this changes no later answer, so that the
two agree in any order: credentials are refused as those of an unknown user exactly if there is no
entry, and otherwise by the secret and the stored hash alone.

* `Internal.Question`: what the backend can be asked; `Internal.Question.run`: what it leaves;
* `Internal.Verdict`: what becomes of credentials with an entry; `Internal.check_verdict`;
* `Internal.knownFrom`, `Internal.loginFrom`: both answers, by what reading the document gives;
* **`Internal.get_run`**: after any questions the document of users reads as before them;
* **`Internal.knows_agrees_with_authenticate`**: both answers, for each way in which the document of
  users can be read.
-/

import Gatehouse.Proofs.Access.Login
import Gatehouse.Proofs.Documents.Bulk

namespace Gatehouse

variable {σ : Type} [DocumentStore σ] {held : Holding} {opens ordered : Bool} {kind : σ → Prop}
  {documents : Documents σ}

/-- Reading a type of a steady store gives what is on offer, and leaves what is on offer. -/
theorem Steady.get (steady : Steady held opens ordered kind documents) (type : String) :
    (documents.get type).1 = offer held opens documents.cache type ∧
      Steady held opens ordered kind (documents.get type).2 ∧
      Extends held opens [type] documents.cache (documents.get type).2.cache := by
  obtain ⟨exchanges, answer, after, conduct, plain, _⟩ := documents.get_does type
  obtain ⟨same, extended⟩ := conduct.get_steady steady
  rw [plain]
  exact ⟨Answer.document.inj same, steady.conduct conduct, extended⟩

namespace Internal

open Text (Bytes)

/-! ### Questions -/

/-- What the backend can be asked. -/
inductive Question where
  | knows (username : String)
  | authenticate (credentials : Credentials)

/-- What the documents are after a question. -/
def Question.after (question : Question) (documents : Documents σ) : Documents σ :=
  match question with
  | .knows username => (Internal.knows username documents).2
  | .authenticate credentials => (Internal.authenticate credentials documents).2

/-- What the documents are after questions, one after another. -/
def Question.run (questions : List Question) (documents : Documents σ) : Documents σ :=
  questions.foldl (fun documents question => question.after documents) documents

/-- Either question reads the document of users and changes nothing else. -/
theorem Question.after_eq (question : Question) (documents : Documents σ) :
    question.after documents = (documents.get usersType).2 := by
  cases question <;> rfl

/-- **After any questions the document of users reads as before them.** -/
theorem get_run (steady : Steady held opens ordered kind documents) (questions : List Question) :
    ((Question.run questions documents).get usersType).1 =
      offer held opens documents.cache usersType := by
  induction questions generalizing documents with
  | nil => exact (steady.get usersType).1
  | cons question rest ih =>
    obtain ⟨_, still, extended⟩ := steady.get usersType
    show ((Question.run rest (question.after documents)).get usersType).1 = _
    rw [question.after_eq, ih still, extended.offer_eq]

/-! ### Verdicts -/

/-- What becomes of credentials with an entry: an empty or absent secret is never compared, and any
other one is accepted or refused as the stored hash says, unless this hash cannot be used. -/
inductive Verdict (credentials : Credentials) (entry : UserEntry) :
    Except AccessError Identity → Prop
  | noSecret (empty : credentials.secret?.getD [] = []) :
      Verdict credentials entry (.error .emptyCredential)
  | accepted {secret : Bytes} (presented : credentials.secret? = some secret) (nonempty : secret ≠ [])
      (gives : Password.verifyStored secret entry.hash = .ok true) :
      Verdict credentials entry (.ok (.ofRoles credentials.username entry.roles))
  | refused {secret : Bytes} (presented : credentials.secret? = some secret) (nonempty : secret ≠ [])
      (differs : Password.verifyStored secret entry.hash = .ok false) :
      Verdict credentials entry (.error .credentialsInvalid)
  | unusable {secret : Bytes} {fault : HashFault} (presented : credentials.secret? = some secret)
      (nonempty : secret ≠ []) (fails : Password.verifyStored secret entry.hash = .error fault) :
      Verdict credentials entry (.error (.hash fault))

/-- Checking credentials against an entry gives this verdict. -/
theorem check_verdict (credentials : Credentials) (entry : UserEntry) :
    Verdict credentials entry (check credentials entry) := by
  unfold check
  cases presented : credentials.secret? with
  | none => exact .noSecret (by rw [presented]; rfl)
  | some secret =>
    by_cases empty : secret = []
    · subst empty
      exact .noSecret (by rw [presented]; rfl)
    · rw [Option.getD_some, Password.verify, if_neg (by rwa [List.isEmpty_iff])]
      cases result : Password.verifyStored secret entry.hash with
      | error fault => exact .unusable presented empty result
      | ok same =>
        cases same with
        | true => exact .accepted presented empty result
        | false => exact .refused presented empty result

/-- With an entry nobody is refused as an unknown user. -/
theorem Verdict.ne_notFound {credentials : Credentials} {entry : UserEntry}
    {result : Except AccessError Identity} (verdict : Verdict credentials entry result)
    (username : String) :
    result ≠ .error (.notFound username) := by
  cases verdict <;> simp

/-! ### Both questions -/

/-- Whether a user is known, by what reading the document of users gives. -/
def knownFrom (username : String) : Result → Except AccessError Bool
  | .error error => .error (.backendUnavailable (.documents error))
  | .ok none => .ok false
  | .ok (some users) => .ok (findUser users username).isSome

/-- What becomes of credentials, by what reading the document of users gives. -/
def loginFrom (credentials : Credentials) : Result → Except AccessError Identity
  | .error error => .error (.backendUnavailable (.documents error))
  | .ok none => .error (.backendUnavailable .noUsers)
  | .ok (some users) => authenticateAmong users credentials

theorem knows_eq (username : String) (documents : Documents σ) :
    (knows username documents).1 = knownFrom username (documents.get usersType).1 := rfl

theorem authenticate_eq (credentials : Credentials) (documents : Documents σ) :
    (authenticate credentials documents).1 =
      loginFrom credentials (documents.get usersType).1 := rfl

/-- With an entry all credentials that name the user get a verdict, and without one all are refused
as those of an unknown user. -/
theorem knownFrom_users (users : Settings) (username : String) :
    (knownFrom username (.ok (some users)) = .ok false ∨
      knownFrom username (.ok (some users)) = .ok true) ∧
    (knownFrom username (.ok (some users)) = .ok false ↔
      ∀ credentials, credentials.username = username →
        loginFrom credentials (.ok (some users)) = .error (.notFound username)) ∧
    (knownFrom username (.ok (some users)) = .ok true →
      ∃ entry, findUser users username = some entry ∧
        ∀ credentials, credentials.username = username →
          Verdict credentials entry (loginFrom credentials (.ok (some users)))) := by
  cases located : findUser users username with
  | none =>
    have unknown : knownFrom username (.ok (some users)) = .ok false := by
      rw [knownFrom, located]
      rfl
    have refused : ∀ credentials, credentials.username = username →
        loginFrom credentials (.ok (some users)) = .error (.notFound username) := by
      rintro credentials rfl
      rw [loginFrom, authenticateAmong, located]
    exact ⟨.inl unknown, iff_of_true unknown refused, fun here => by rw [unknown] at here; cases here⟩
  | some entry =>
    have here : knownFrom username (.ok (some users)) = .ok true := by
      rw [knownFrom, located]
      rfl
    have verdict : ∀ credentials, credentials.username = username →
        Verdict credentials entry (loginFrom credentials (.ok (some users))) := by
      rintro credentials rfl
      rw [loginFrom, authenticateAmong, located]
      exact check_verdict credentials entry
    have someone := (verdict (.established username) rfl).ne_notFound username
    exact ⟨.inr here, iff_of_false (by rw [here]; nofun) fun all => someone (all _ rfl),
      fun _ => ⟨entry, rfl, verdict⟩⟩

/-- Credentials are accepted only with an entry. -/
theorem knownFrom_of_loginFrom {credentials : Credentials} {identity : Identity} {read : Result}
    (accepted : loginFrom credentials read = .ok identity) :
    knownFrom credentials.username read = .ok true := by
  cases read with
  | error error => cases accepted
  | ok found =>
    cases found with
    | none => cases accepted
    | some users =>
      rw [loginFrom, authenticateAmong] at accepted
      rw [knownFrom]
      cases located : findUser users credentials.username with
      | none => rw [located] at accepted; cases accepted
      | some entry => rfl

/-- **Whether a user exists agrees with what becomes of its credentials.** Over a store that stays as
it is, for any user name, and whatever the backend was asked before:

* if there is a document of users to read, the user is either known or not, and is unknown exactly if
  all credentials with the name are refused as those of an unknown user; if it is known, there is an
  entry that decides about all credentials with the name;
* if there is none, or the store is not ready, nobody is known and the backend is unavailable for
  credentials;
* if reading fails, the backend is unavailable for both, with the same error;
* so credentials are accepted only if their user is known. -/
theorem knows_agrees_with_authenticate (steady : Steady held opens ordered kind documents)
    (earlier : List Question) (username : String) :
    let read := offer held opens documents.cache usersType
    let known := (knows username (Question.run earlier documents)).1
    let login := fun credentials => (authenticate credentials (Question.run earlier documents)).1
    (∀ users, read = .ok (some users) →
      (known = .ok false ∨ known = .ok true) ∧
      (known = .ok false ↔ ∀ credentials, credentials.username = username →
        login credentials = .error (.notFound username)) ∧
      (known = .ok true → ∃ entry, findUser users username = some entry ∧
        ∀ credentials, credentials.username = username →
          Verdict credentials entry (login credentials))) ∧
    (read = .ok none → known = .ok false ∧
      ∀ credentials, login credentials = .error (.backendUnavailable .noUsers)) ∧
    (∀ error, read = .error error → known = .error (.backendUnavailable (.documents error)) ∧
      ∀ credentials, login credentials = .error (.backendUnavailable (.documents error))) ∧
    ∀ credentials identity, credentials.username = username → login credentials = .ok identity →
      known = .ok true := by
  intro read known login
  have reads : ((Question.run earlier documents).get usersType).1 = read := get_run steady earlier
  have known_eq : known = knownFrom username read := by rw [← reads]; exact knows_eq ..
  have login_eq : ∀ credentials, login credentials = loginFrom credentials read := by
    intro credentials
    rw [← reads]
    exact authenticate_eq ..
  simp only [known_eq, login_eq]
  refine ⟨fun users same => ?_, fun same => ?_, fun error same => ?_, ?_⟩
  · rw [same]
    exact knownFrom_users users username
  · rw [same]
    exact ⟨rfl, fun _ => rfl⟩
  · rw [same]
    exact ⟨rfl, fun _ => rfl⟩
  · rintro credentials identity rfl accepted
    exact knownFrom_of_loginFrom accepted

/-- A store in memory with two users, one of them without a hash. -/
def twoUsers : Documents MemoryStore :=
  .ofStore { MemoryStore.empty with
    documents := Table.ofList [(usersType, "kirk: {hash: x}\nspock: {roles: [science]}")] }

/-- One user is known, and its hash of an unknown kind is reported; the other one is unknown. -/
theorem knows_agrees_with_twoUsers :
    let earlier := [Question.knows "spock", .authenticate (.withSecret "kirk" [])]
    let documents := Question.run earlier twoUsers
    let kirk := Credentials.withSecret "kirk" (Text.encode "enterprise")
    Steady (.ok twoUsers.store.document) twoUsers.ensureReady.1 true (· = twoUsers.store) twoUsers ∧
    (∃ users, offer (.ok twoUsers.store.document) twoUsers.ensureReady.1 twoUsers.cache usersType =
      .ok (some users)) ∧
    (knows "kirk" documents).1 = .ok true ∧
    (∃ entry, Verdict kirk entry (authenticate kirk documents).1) ∧
    (authenticate kirk documents).1 = .error (.hash .unsupported) ∧
    (knows "spock" documents).1 = .ok false ∧
    ∀ credentials : Credentials, credentials.username = "spock" →
      (authenticate credentials documents).1 = .error (.notFound "spock") := by
  intro earlier documents kirk
  have steady := MemoryStore.steady twoUsers
  have readable : ∃ users, offer (.ok twoUsers.store.document) twoUsers.ensureReady.1
      twoUsers.cache usersType = .ok (some users) := by
    rw [← (steady.get usersType).1]
    have held : (Result.document? (twoUsers.get usersType).1).isSome = true := by decide +kernel
    obtain ⟨users, found⟩ := Option.isSome_iff_exists.mp held
    exact ⟨users, Result.document?_eq_some_iff.mp found⟩
  obtain ⟨users, read⟩ := readable
  have here : (knows "kirk" documents).1 = .ok true := by decide +kernel
  have absent : (knows "spock" documents).1 = .ok false := by decide +kernel
  obtain ⟨_, _, known⟩ := (knows_agrees_with_authenticate steady earlier "kirk").1 users read
  obtain ⟨_, unknown, _⟩ := (knows_agrees_with_authenticate steady earlier "spock").1 users read
  obtain ⟨entry, _, verdict⟩ := known here
  exact ⟨steady, ⟨users, read⟩, here, ⟨entry, verdict kirk rfl⟩, by decide +kernel, absent,
    unknown.mp absent⟩

end Internal

end Gatehouse
