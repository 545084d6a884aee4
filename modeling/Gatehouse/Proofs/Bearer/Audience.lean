/-
**Issuers and audiences.**

Settings may ask for an issuer and an audience. What a payload says of its issuer is compared only
if it says something, and what it says of its audience only if that is a text or a list of texts: a
token that is silent about them is accepted like one that names them.

* **`extract_isSome_iff`**: exactly which tokens are accepted;
* `accepted_without_issuer`: a token without issuer that is accepted where one is asked for.
-/

import Gatehouse.Proofs.Bearer.Signed

namespace Gatehouse.Bearer

open Text (Bytes)

theorem Rules.extract_extractor (rules : Rules) (now : Nat) (request : Request) :
    rules.extractor.extract now request = rules.extract now request := rfl

/-- Claims that name a user establish credentials. -/
theorem Rules.exists_credentials {rules : Rules} {claims : Claims} {user : String}
    (named : claims.user? rules.subjectName = some user) :
    ∃ credentials, rules.credentials claims = .ok credentials := by
  unfold Rules.credentials
  rw [named]
  exact ⟨_, rfl⟩

/-- Claims name an issuer exactly if their entries hold its text. -/
theorem Claims.Reads.from_issuer_iff {entries : Entries Tree} {claims : Claims}
    (reads : Claims.Reads entries claims) {issuer : String} :
    (∀ given, claims.issuer = some given → given = issuer) ↔
      valueOf entries "iss" = .null ∨ valueOf entries "iss" = .text issuer := by
  rw [reads.issuer]
  cases claims.issuer <;> simp

/-- **A token is accepted** exactly if the key of the settings vouches for it, its time is not past
by more than a minute, it names the user, its issuer is the one that the settings ask for unless it
has none, and its audience is the one they ask for, or a list with it, unless it is neither a text
nor a list of texts. -/
theorem extract_isSome_iff {settings : Settings} {extractor : Extractor}
    (built : TypeTable.buildBearer settings = .ok extractor) (now : Nat) (request : Request) :
    (∃ credentials, extractor.extract now request = .ok (some credentials)) ↔
      ∃ (key : Key) (token : List Char) (parts : Parts) (payload : Bytes) (entries : Entries Tree)
        (claims : Claims),
        Configures settings key ∧ Rules.Carries request token ∧
        Text.splitAll '.' token = parts.toList ∧ key.Vouches parts claims ∧
        Key.partBytes parts.payload = .ok payload ∧ Json.Reads payload (.object entries) ∧
        now ≤ claims.expires + 60 ∧
        (∃ user, claims.user? ((settings.text? "subject_key").getD "sub") = some user) ∧
        (∀ issuer, settings.text? "issuer" = some issuer →
          Claims.valueOf entries "iss" = .null ∨ Claims.valueOf entries "iss" = .text issuer) ∧
        ∀ audience, settings.text? "audience" = some audience →
          Claims.Admits audience (Claims.valueOf entries "aud") := by
  obtain ⟨rules, are_of, rfl⟩ := buildBearer_eq_ok_iff.mp built
  constructor
  · rintro ⟨credentials, extracted⟩
    obtain ⟨token, claims, carries, accepted, established⟩ := Rules.extract_eq_some_iff.mp extracted
    obtain ⟨parts, cut, vouches, lasting, issued, addressed⟩ := Rules.accept_eq_ok_iff.mp accepted
    obtain ⟨payload, payload_read, claimed⟩ := vouches.payload
    obtain ⟨entries, reads, are⟩ := Claims.ofBytes_eq_ok_iff.mp claimed
    have user := (Rules.credentials_eq_ok established).1
    rw [are_of.subjectName] at user
    rw [are_of.issuer] at issued
    rw [are_of.audience, ← are.audience] at addressed
    exact ⟨rules.key, token, parts, payload, entries, claims, are_of.key, carries, cut, vouches,
      payload_read, reads, lasting, ⟨_, user⟩,
      fun issuer asked => are.from_issuer_iff.mp (issued issuer asked), addressed⟩
  · rintro ⟨key, token, parts, payload, entries, claims, configured, carries, cut, vouches,
      payload_read, reads, lasting, ⟨user, named⟩, issued, addressed⟩
    obtain ⟨payload', payload_read', claimed⟩ := vouches.payload
    obtain ⟨entries', reads', are⟩ := Claims.ofBytes_eq_ok_iff.mp claimed
    -- the payload and its entries are those that the claims are read from
    cases payload_read.symm.trans payload_read'
    cases reads.symm.trans reads'
    have accepted : rules.accept now token = .ok claims := by
      refine Rules.accept_eq_ok_iff.mpr ⟨parts, cut, configured.unique are_of.key ▸ vouches,
        lasting, fun issuer asked => ?_, fun audience asked => ?_⟩
      · exact are.from_issuer_iff.mpr (issued issuer (are_of.issuer.symm.trans asked))
      · rw [← are.audience]
        exact addressed audience (are_of.audience.symm.trans asked)
    obtain ⟨credentials, established⟩ :=
      @Rules.exists_credentials rules claims user (are_of.subjectName ▸ named)
    exact ⟨credentials,
      Rules.extract_eq_some_iff.mpr ⟨token, claims, carries, accepted, established⟩⟩

/-- Settings that ask for tokens of one issuer. -/
def starfleet : Settings :=
  .ofTree (.object [("issuer", .text "starfleet"), ("signing_key", .text "enterprise")])

/-- The rules of these settings. -/
def starfleetRules : Rules :=
  ⟨.secret (Text.encode "enterprise"), some "starfleet", none, Claims.subjectName, Claims.rolesName⟩

theorem built_starfleet : TypeTable.buildBearer starfleet = .ok starfleetRules.extractor := by
  have configures : Configures starfleet (.secret (Text.encode "enterprise")) :=
    ⟨by decide +kernel, "enterprise", by decide +kernel, rfl⟩
  exact buildBearer_eq_ok_iff.mpr ⟨starfleetRules, ⟨configures, by decide +kernel,
    by decide +kernel, by decide +kernel, by decide +kernel⟩, rfl⟩

/-- The payload of a user and another issuer, as compact text. -/
def agentPayload : Bytes :=
  Text.encode (Tree.object [("sub", .text "spock"), ("exp", .int 4102444800),
    ("iss", .text "romulus")]).toJson

theorem reads_agentPayload : Json.Reads agentPayload (.object [("sub", .text "spock"),
    ("exp", .int 4102444800), ("iss", .text "romulus")]) :=
  Json.reads_flat (by decide)

theorem refused_of_other_issuer :
    ∃ extractor, TypeTable.buildBearer starfleet = .ok extractor ∧
      ¬ ∃ credentials, extractor.extract 1700000000
          (Parts.signed (Text.encode "enterprise") secretHeader agentPayload).toRequest =
        .ok (some credentials) := by
  refine ⟨_, built_starfleet, fun accepted => ?_⟩
  obtain ⟨_, _, _, payload, _, _, _, carries, cut, _, payload_read, reads, _, _, issued, _⟩ :=
    (extract_isSome_iff built_starfleet _ _).mp accepted
  cases Rules.parts_of_carries carries cut
  cases (Key.partBytes_partOf agentPayload).symm.trans payload_read
  cases reads_agentPayload.symm.trans reads
  rcases issued "starfleet" (by decide +kernel) with silent | other
  · cases silent
  · exact absurd (Tree.text.inj other) (by decide)

/-- A token without issuer is accepted where one is asked for. -/
theorem accepted_without_issuer :
    let request := (Parts.signed (Text.encode "enterprise") secretHeader
      (Claims.payloadOf "spock" 4102444800 ["science"])).toRequest
    starfleet.text? "issuer" = some "starfleet" ∧
    ∃ extractor, TypeTable.buildBearer starfleet = .ok extractor ∧
      (∃ credentials, extractor.extract 1700000000 request = .ok (some credentials)) ∧
      ∃ (token : List Char) (parts : Parts) (payload : Bytes) (entries : Entries Tree),
        Rules.Carries request token ∧ Text.splitAll '.' token = parts.toList ∧
        Key.partBytes parts.payload = .ok payload ∧ Json.Reads payload (.object entries) ∧
        entries.find? "iss" = none := by
  intro request
  have bounded : 4102444800 < Claims.timeBound := by decide
  have accepted : starfleetRules.extract 1700000000 request = .ok (some _) :=
    Rules.extract_of_user rfl rfl rfl (by decide) (by decide) bounded ["science"]
  exact ⟨by decide +kernel, _, built_starfleet,
    ⟨_, (starfleetRules.extract_extractor _ _).trans accepted⟩, _, _, _, _,
    Rules.carries_toRequest, Parts.splitAll_signed, Key.partBytes_partOf _,
    Claims.reads_payloadOf bounded _ _, rfl⟩

end Gatehouse.Bearer
