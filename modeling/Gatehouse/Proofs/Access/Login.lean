/-
**What a login rests on.**

Credentials come from a header with a secret, from headers that a proxy has set, or from a token. A
backend either compares the secret with a stored hash or takes the word of the extractor. This module
says of each extractor and each backend exactly when it gives something, and what.

* `Basic.Presents`: a header with a user name and a secret; `Basic.extract_eq_some_iff`;
* `Proxy.extract_eq_some_iff`, `Bearer.Rules.extract_eq_some`: users that are established;
* `Internal.authenticate_eq_ok_iff`: the stored hash of a found entry is the hash of the secret;
* `Noop.authenticate_eq_ok_iff`: the user is established already.
-/

import Gatehouse.Access.Basic
import Gatehouse.Access.Internal
import Gatehouse.Access.Noop
import Gatehouse.Access.Proxy
import Gatehouse.Bearer.Extractor

namespace Gatehouse

open Text (Bytes)

/-! ### Credentials -/

namespace Credentials

/-- Roles added to credentials without any are the set of these roles. -/
theorem roles_addRoles_established (username : String) (roles : List String) :
    ((established username).addRoles roles).roles = NameSet.ofNames roles := by
  unfold NameSet.ofNames Table.ofList
  rw [List.foldl_map]
  rfl

end Credentials

/-! ### A user name and a secret -/

namespace Basic

theorem splitColon?_eq_some_iff {bytes user secret : Bytes} :
    splitColon? bytes = some (user, secret) ↔
      bytes = user ++ 0x3A :: secret ∧ 0x3A ∉ user := by
  induction bytes generalizing user with
  | nil => simp [splitColon?]
  | cons byte rest ih =>
    rw [splitColon?]
    by_cases colon : byte = 0x3A
    · rw [if_pos colon]
      cases user with
      | nil => simp [colon]
      | cons head tail =>
        simp only [Option.some.injEq, Prod.mk.injEq, List.cons_append, List.cons.injEq,
          List.mem_cons, not_or]
        constructor
        · rintro ⟨impossible, _⟩; cases impossible
        · rintro ⟨⟨same, _⟩, different, _⟩; exact (different (same ▸ colon.symm)).elim
    · rw [if_neg colon, Option.map_eq_some_iff]
      cases user with
      | nil =>
        simp only [List.nil_append, List.cons.injEq, List.not_mem_nil, not_false_eq_true, and_true]
        constructor
        · rintro ⟨⟨_, _⟩, _, impossible⟩; cases impossible
        · rintro ⟨same, _⟩; exact (colon same).elim
      | cons head tail =>
        constructor
        · rintro ⟨⟨before, after⟩, found, same⟩
          cases same
          obtain ⟨rfl, absent⟩ := ih.mp found
          exact ⟨rfl, by simp [absent, Ne.symm colon]⟩
        · rintro ⟨whole, absent⟩
          cases whole
          exact ⟨(tail, secret), ih.mpr ⟨rfl, fun inside => absent (List.mem_cons_of_mem _ inside)⟩,
            rfl⟩

/-- The header of a request holds a user name and a secret: the scheme, and the base64 form of the
bytes of the name, a colon and the secret. -/
def Presents (request : Request) (username : String) (secret : Bytes) : Prop :=
  ∃ header encoded, request.header? headerName = some header ∧
    afterScheme? typeName header.toList = some encoded ∧
    Base64.decode Base64.standard true (Text.encode (String.ofList (Text.trimBoth encoded))) =
      .ok (Text.encode username ++ 0x3A :: secret) ∧
    0x3A ∉ Text.encode username

theorem ofBytes_eq_ok_iff {bytes : Bytes} {credentials : Credentials} :
    ofBytes bytes = .ok credentials ↔
      ∃ username secret, bytes = Text.encode username ++ 0x3A :: secret ∧
        0x3A ∉ Text.encode username ∧ username ≠ "" ∧
        credentials = .withSecret username secret := by
  unfold ofBytes
  constructor
  · intro read
    split at read
    · cases read
    · next user secret split? =>
      split at read
      · cases read
      · next username decoded =>
        split at read
        · cases read
        · next named =>
          cases read
          obtain ⟨whole, absent⟩ := splitColon?_eq_some_iff.mp split?
          rw [← Text.encode_of_decode? decoded] at whole absent
          exact ⟨username, secret, whole, absent, named, rfl⟩
  · rintro ⟨username, secret, whole, absent, named, rfl⟩
    rw [splitColon?_eq_some_iff.mpr ⟨whole, absent⟩]
    simp only [Text.decode?_encode, if_neg named]

/-- Credentials are taken from a request exactly when it presents a user with a name. -/
theorem extract_eq_some_iff {request : Request} {credentials : Credentials} :
    extract request = .ok (some credentials) ↔
      ∃ username secret, Presents request username secret ∧ username ≠ "" ∧
        credentials = .withSecret username secret := by
  unfold extract Presents
  constructor
  · intro read
    split at read
    · cases read
    · next encoded found =>
      obtain ⟨header, present, scheme⟩ := Option.bind_eq_some_iff.mp found
      split at read
      · cases read
      · next other accepted =>
        cases read
        unfold ofEncoded at accepted
        simp only at accepted
        split at accepted
        · cases accepted
        · next bytes decoded =>
          obtain ⟨username, secret, rfl, absent, named, same⟩ := ofBytes_eq_ok_iff.mp accepted
          exact ⟨username, secret, ⟨header, encoded, present, scheme, decoded, absent⟩, named, same⟩
  · rintro ⟨username, secret, ⟨header, encoded, present, scheme, decoded, absent⟩, named, rfl⟩
    have found : ((request.header? headerName).bind fun header =>
        afterScheme? typeName header.toList) = some encoded := by
      rw [present]; exact scheme
    have accepted : ofEncoded encoded = .ok (.withSecret username secret) := by
      unfold ofEncoded
      simp only [decoded]
      exact ofBytes_eq_ok_iff.mpr ⟨username, secret, rfl, absent, named, rfl⟩
    rw [found]
    simp only [accepted]

end Basic

/-! ### Established users -/

namespace Proxy

/-- A proxy names a user exactly when its header is there and not blank; the roles are those of the
other header. -/
theorem extract_eq_some_iff {userHeader rolesHeader : String} {request : Request}
    {credentials : Credentials} :
    extract userHeader rolesHeader request = some credentials ↔
      ∃ value, request.header? userHeader = some value ∧ Text.trim value ≠ "" ∧
        credentials = (Credentials.established (Text.trim value)).addRoles
          (((request.header? rolesHeader).map Text.commaList).getD []) := by
  unfold extract
  cases present : request.header? userHeader with
  | none => simp
  | some value =>
    by_cases blank : Text.trim value = ""
    · simp [blank]
    · simp only [Option.map_some, if_neg blank, Option.some.injEq]
      constructor
      · rintro rfl; exact ⟨value, rfl, blank, rfl⟩
      · rintro ⟨_, rfl, _, same⟩; exact same.symm

end Proxy

namespace Bearer.Rules

/-- The credentials of claims establish the user that the claims name, with the roles they list. -/
theorem credentials_eq_ok {rules : Rules} {claims : Claims} {credentials : Credentials}
    (established : rules.credentials claims = .ok credentials) :
    claims.user? rules.subjectName = some credentials.username ∧
      credentials.evidence = .established ∧
      credentials.roles = NameSet.ofNames (claims.roles rules.rolesName) := by
  unfold Rules.credentials at established
  split at established
  · cases established
  · next user named =>
    cases established
    have roles := Credentials.roles_addRoles_established user (claims.roles rules.rolesName)
    refine ⟨?_, ?_, ?_⟩
    · cases claims.audienceText? <;> cases claims.issuer <;> exact named
    · cases claims.audienceText? <;> cases claims.issuer <;> rfl
    · cases claims.audienceText? <;> cases claims.issuer <;> exact roles

/-- Credentials from a token are those of the claims of an accepted token. -/
theorem extract_eq_some {rules : Rules} {now : Nat} {request : Request} {credentials : Credentials}
    (extracted : rules.extract now request = .ok (some credentials)) :
    ∃ token claims, token? request = some token ∧ rules.accept now token = .ok claims ∧
      rules.credentials claims = .ok credentials := by
  unfold extract at extracted
  split at extracted
  · cases extracted
  · next token present =>
    cases accepted : rules.accept now token with
    | error error => rw [accepted] at extracted; cases extracted
    | ok claims =>
      rw [accepted] at extracted
      cases established : rules.credentials claims with
      | error error =>
        change (do return some (← rules.credentials claims)) = _ at extracted
        rw [established] at extracted
        cases extracted
      | ok given =>
        change (do return some (← rules.credentials claims)) = _ at extracted
        rw [established] at extracted
        cases extracted
        exact ⟨token, claims, present, accepted, established⟩

end Bearer.Rules

/-! ### Backends -/

namespace Noop

/-- The word of the extractor is taken exactly for established users with a name. -/
theorem authenticate_eq_ok_iff {credentials : Credentials} {identity : Identity} :
    authenticate credentials = .ok identity ↔
      credentials.username ≠ "" ∧ credentials.evidence = .established ∧
        identity = ⟨credentials.username, credentials.roles⟩ := by
  unfold authenticate Credentials.isComplete
  by_cases named : credentials.username = ""
  · simp [named]
  · cases evidence : credentials.evidence with
    | secret bytes => simp [named]
    | established => simp [named, eq_comm]

end Noop

namespace Internal

/-- Credentials are accepted for an entry exactly when they carry a secret that is not empty and
gives the hash of the entry. -/
theorem check_eq_ok_iff {credentials : Credentials} {entry : UserEntry} {identity : Identity} :
    check credentials entry = .ok identity ↔
      ∃ secret, credentials.evidence = .secret secret ∧ secret ≠ [] ∧
        Password.verify secret entry.hash = .ok true ∧
        identity = .ofRoles credentials.username entry.roles := by
  unfold check Credentials.secret?
  cases evidence : credentials.evidence with
  | established => simp [Password.verify]
  | secret bytes =>
    by_cases empty : bytes = []
    · subst empty; simp [Password.verify]
    · cases verdict : Password.verify bytes entry.hash with
      | error error => simp [verdict]
      | ok same => cases same <;> simp [verdict, empty, eq_comm]

variable {σ : Type} [DocumentStore σ]

/-- Credentials are accepted exactly when there is a document of users with an entry of the user
whose hash the secret gives. -/
theorem authenticate_eq_ok_iff {credentials : Credentials} {documents : Documents σ}
    {identity : Identity} :
    (authenticate credentials documents).1 = .ok identity ↔
      ∃ users entry secret, (documents.get usersType).1 = .ok (some users) ∧
        findUser users credentials.username = some entry ∧
        credentials.evidence = .secret secret ∧ secret ≠ [] ∧
        Password.verify secret entry.hash = .ok true ∧
        identity = .ofRoles credentials.username entry.roles := by
  unfold authenticate
  cases read : (documents.get usersType).1 with
  | error error => simp [read]
  | ok found =>
    cases found with
    | none => simp [read]
    | some users =>
      simp only [read, Except.ok.injEq, Option.some.injEq]
      unfold authenticateAmong
      cases located : findUser users credentials.username with
      | none => simp [located]
      | some entry =>
        simp only [check_eq_ok_iff]
        constructor
        · rintro ⟨secret, rest⟩; exact ⟨users, entry, secret, rfl, located, rest⟩
        · rintro ⟨_, other, secret, rfl, same, rest⟩
          rw [located] at same
          cases same
          exact ⟨secret, rest⟩

end Internal

end Gatehouse
