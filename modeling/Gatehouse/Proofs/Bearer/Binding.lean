/-
**Tokens are bound to the key of the settings.**

The algorithm that a token names is never the one by which it is verified: that is the algorithm of
the key in the settings, and the token must name the same one. So a public key cannot be used as a
shared secret, nor can a token do without a signature.

* **`extract_bound_to_key`**: what is behind credentials from a token, which tokens are refused for
  their algorithm, and which tokens of a shared secret are accepted.
-/

import Gatehouse.Proofs.Bearer.Signed

namespace Gatehouse.Bearer

open Text (Bytes)

/-- **Tokens are bound to the key of the settings.** These name one key. Credentials come from a
token of three parts of which the header names exactly the algorithm of this key, the signature is
one of the other two under this key, the time is not past by more than a minute, and the subject is
the user; a token that names another algorithm or none is refused. If the key is a shared secret and
the claims have their usual names, then whoever signs a user, a time to come and roles with the
secret gets exactly this user with these roles. -/
theorem extract_bound_to_key {settings : Settings} {extractor : Extractor}
    (built : TypeTable.buildBearer settings = .ok extractor) (now : Nat) (request : Request) :
    ∃ key, Configures settings key ∧
      (∀ credentials, extractor.extract now request = .ok (some credentials) →
        ∃ (token : List Char) (parts : Parts) (header payload : Bytes) (entries : Entries Tree)
          (expires : Nat),
          Rules.Carries request token ∧ Text.splitAll '.' token = parts.toList ∧
          Key.partBytes parts.header = .ok header ∧ Header.Names header key.algorithm ∧
          key.Signs parts.message parts.signature ∧
          Key.partBytes parts.payload = .ok payload ∧ Json.Reads payload (.object entries) ∧
          entries.find? "exp" = some (.int expires) ∧ now ≤ expires + 60 ∧
          Entries.find? ((settings.text? "subject_key").getD "sub") entries.reverse =
            some (.text credentials.username) ∧
          credentials.username ≠ "") ∧
      (∀ token, Rules.Carries request token →
        (∃ other, other ≠ key.algorithm ∧ Names token other) ∨
          (∀ algorithm, ¬ Names token algorithm) →
        ∃ fault, extractor.extract now request = .error (.invalidToken fault)) ∧
      ∀ secret, key = .secret secret → (settings.text? "subject_key").getD "sub" = "sub" →
        (settings.text? "roles_key").getD "roles" = "roles" →
        ∀ (header payload : Bytes) (head body : Entries Tree) (user : String) (expires : Nat)
          (roles : List String),
          Json.Reads header (.object head) →
          head.Perm [("alg", .text "HS256"), ("typ", .text "JWT")] →
          Json.Reads payload (.object body) →
          body.Perm [("sub", .text user), ("exp", .int expires),
            ("roles", .list (roles.map .text))] →
          user ≠ "" → now ≤ expires + 60 → expires < Claims.timeBound →
          Rules.Carries request (Parts.signed secret header payload).toToken →
          extractor.extract now request =
            .ok (some ⟨user, .established, NameSet.ofNames roles, .empty⟩) := by
  obtain ⟨rules, are_of, rfl⟩ := buildBearer_eq_ok_iff.mp built
  refine ⟨rules.key, are_of.key, ?_, ?_, ?_⟩
  · intro credentials extracted
    obtain ⟨token, claims, carries, accepted, established⟩ := Rules.extract_eq_some_iff.mp extracted
    obtain ⟨parts, cut, vouches, lasting, _⟩ := Rules.accept_eq_ok_iff.mp accepted
    obtain ⟨header, header_read, algorithm⟩ := vouches.header
    obtain ⟨payload, payload_read, claimed⟩ := vouches.payload
    obtain ⟨entries, reads, are⟩ := Claims.ofBytes_eq_ok_iff.mp claimed
    have user := (Rules.credentials_eq_ok established).1
    obtain ⟨named, _, subject⟩ := (Claims.user?_eq_some_iff are).mp user
    have expires : Entries.find? "exp" entries = some (.int claims.expires) := by
      have value := are.expires.1
      unfold Claims.valueOf at value
      cases found : Entries.find? "exp" entries with
      | none => rw [found] at value; cases value
      | some time => rw [found] at value; exact congrArg some value
    rw [are_of.subjectName] at subject
    exact ⟨token, parts, header, payload, entries, claims.expires, carries, cut, header_read,
      Header.names_of_algorithm algorithm, vouches.signature, payload_read, reads, expires, lasting,
      subject, named⟩
  · intro token carries names
    refine Rules.extract_of_not_names carries fun own => ?_
    rcases names with ⟨other, different, names⟩ | unnamed
    · exact different (names.unique own)
    · exact unnamed _ own
  · intro secret key subject listed header payload head body user expires roles head_read head_is
      body_read body_is named lasting bounded carries
    exact Rules.extract_of_signed key (are_of.subjectName.trans subject)
      (are_of.rolesName.trans listed) head_read head_is body_read body_is named lasting bounded
      carries

/-- Settings with a shared secret. -/
def bridge : Settings := .ofTree (.object [("signing_key", .text "enterprise")])

theorem extract_spock :
    ∃ extractor, TypeTable.buildBearer bridge = .ok extractor ∧
      extractor.extract 1700000000 (Parts.signed (Text.encode "enterprise") secretHeader
          (Claims.payloadOf "spock" 4102444800 ["science"])).toRequest =
        .ok (some ⟨"spock", .established, NameSet.ofNames ["science"], .empty⟩) := by
  have configures : Configures bridge (.secret (Text.encode "enterprise")) :=
    ⟨by decide +kernel, "enterprise", by decide +kernel, rfl⟩
  have are_of : (Rules.ofKey (.secret (Text.encode "enterprise"))).AreOf bridge :=
    ⟨configures, by decide +kernel, by decide +kernel, by decide +kernel, by decide +kernel⟩
  have built := buildBearer_eq_ok_iff.mpr ⟨_, are_of, rfl⟩
  have bounded : 4102444800 < Claims.timeBound := by decide
  obtain ⟨key, configured, _, _, accepts⟩ := extract_bound_to_key built 1700000000
    (Parts.signed (Text.encode "enterprise") secretHeader
      (Claims.payloadOf "spock" 4102444800 ["science"])).toRequest
  exact ⟨_, built, accepts _ (configured.unique configures) (by decide +kernel) (by decide +kernel)
    _ _ _ _ "spock" 4102444800 ["science"] reads_secretHeader (.refl _)
    (Claims.reads_payloadOf bounded _ _) (.refl _) (by decide) (by decide) bounded
    Rules.carries_toRequest⟩

end Gatehouse.Bearer
