/-
**Configured claim names.**

Rules name the claim with the user and the claim with the roles. They are looked up among the claims
without a meaning of their own, and besides these only the subject can name a user. So under the
name of the issuer or the audience no user is found, whatever stands there, and under the name of
any claim with a meaning of its own no roles.

* `Acceptable`: a token that is accepted, whatever it says of its user;
* `Claims.Grants`: the roles in a value; `Claims.mem_roles_iff`;
* **`extract_of_names`**: the user and the roles of an acceptable token;
* `refused_for_issuer`: a token that names its user by the issuer.
-/

import Gatehouse.Proofs.Bearer.Audience

namespace Gatehouse

open Text (Bytes)

/-! ### Sets and lists of names -/

theorem NameSet.contains_ofNames {listed : List String} {name : String} :
    (NameSet.ofNames listed).contains name = true ↔ name ∈ listed := by
  rw [Table.contains, NameSet.ofNames, Table.find?_ofList, ← List.map_reverse,
    ← @List.mem_reverse _ _ listed]
  induction listed.reverse with
  | nil => simp
  | cons head rest ih =>
    rw [List.map_cons, Entries.find?, List.mem_cons, ← ih]
    by_cases here : name = head <;> simp [here]

/-- The members of a list are its parts between commas without the blanks around them, unless
nothing is left. -/
theorem Text.mem_commaList_iff {text member : String} :
    member ∈ commaList text ↔
      member ≠ "" ∧ ∃ part ∈ splitAll ',' text.toList, member.toList = trimBoth part := by
  simp only [commaList, List.mem_filterMap, List.mem_map, Option.ite_none_left_eq_some,
    Option.some.injEq, List.isEmpty_iff]
  constructor
  · rintro ⟨_, ⟨part, inside, rfl⟩, given, rfl⟩
    refine ⟨fun empty => given ?_, part, inside, String.toList_ofList⟩
    rw [← String.toList_ofList (l := trimBoth part), empty]
    rfl
  · rintro ⟨given, part, inside, same⟩
    refine ⟨_, ⟨part, inside, rfl⟩, fun empty => given ?_, by rw [← same, String.ofList_toList]⟩
    rw [← String.toList_inj, same, empty]
    rfl

namespace Bearer

/-! ### Roles -/

namespace Claims

/-- The roles in a value: the texts of a list, or the parts of a text between commas without the
blanks around them, unless nothing is left. -/
inductive Grants : Tree → String → Prop
  | member {items : List Tree} {role : String} (listed : .text role ∈ items) :
      Grants (.list items) role
  | part {text role : String} {part : List Char} (inside : part ∈ Text.splitAll ',' text.toList)
      (trimmed : role.toList = Text.trimBoth part) (given : role ≠ "") : Grants (.text text) role

theorem grants_list_iff {items : List Tree} {role : String} :
    Grants (.list items) role ↔ .text role ∈ items :=
  ⟨fun | .member listed => listed, .member⟩

theorem grants_text_iff {text role : String} :
    Grants (.text text) role ↔ role ∈ Text.commaList text := by
  rw [Text.mem_commaList_iff]
  exact ⟨fun | .part inside trimmed given => ⟨given, _, inside, trimmed⟩,
    fun ⟨given, _, inside, trimmed⟩ => .part inside trimmed given⟩

theorem textOf?_eq_some_iff {tree : Tree} {text : String} :
    textOf? tree = some text ↔ tree = .text text := by
  cases tree <;> simp [textOf?]

/-- The roles of claims are those in the value of a claim without a meaning of its own. -/
theorem mem_roles_iff {entries : Entries Tree} {claims : Claims} (reads : Reads entries claims)
    {name role : String} :
    role ∈ claims.roles name ↔ name ∉ knownNames ∧
      ∃ value, Entries.find? name entries.reverse = some value ∧ Grants value role := by
  rw [roles, reads.others name]
  by_cases known : name ∈ knownNames
  · simp [known]
  · rw [if_neg known]
    cases Entries.find? name entries.reverse with
    | none => simp
    | some value =>
      have only : (name ∉ knownNames ∧ ∃ other, some value = some other ∧ Grants other role) ↔
          Grants value role := by
        refine ⟨?_, fun grants => ⟨known, value, rfl, grants⟩⟩
        rintro ⟨_, _, same, grants⟩
        cases same
        exact grants
      rw [only]
      cases value with
      | list items =>
        rw [grants_list_iff, Option.map_some, Tree.canonical, Tree.canonicalItems_eq]
        simp only [List.mem_filterMap, List.mem_map, textOf?_eq_some_iff]
        constructor
        · rintro ⟨_, ⟨item, inside, rfl⟩, same⟩
          rwa [← Tree.canonical_eq_text_iff.mp same]
        · exact fun inside => ⟨_, ⟨_, inside, rfl⟩, Tree.canonical_eq_text_iff.mpr rfl⟩
      | text text => exact grants_text_iff.symm
      | object entries =>
        rw [Option.map_some, Tree.canonical]
        exact iff_of_false List.not_mem_nil (by rintro ⟨⟩)
      | _ => exact iff_of_false List.not_mem_nil (by rintro ⟨⟩)

end Claims

/-! ### Acceptable tokens -/

/-- A token is acceptable, whatever it says of its user: it has three parts for which the key
vouches, of which the payload spells some entries, its time is not past by more than a minute, and
it is from the issuer and for the audience that are asked for, as far as it says so. -/
def Acceptable (rules : Rules) (now : Nat) (token : List Char) (entries : Entries Tree) : Prop :=
  ∃ (parts : Parts) (payload : Bytes) (claims : Claims),
    Text.splitAll '.' token = parts.toList ∧ rules.key.Vouches parts claims ∧
    Key.partBytes parts.payload = .ok payload ∧ Json.Reads payload (.object entries) ∧
    now ≤ claims.expires + 60 ∧
    (∀ issuer, rules.issuer = some issuer →
      Claims.valueOf entries "iss" = .null ∨ Claims.valueOf entries "iss" = .text issuer) ∧
    ∀ audience, rules.audience = some audience →
      Claims.Admits audience (Claims.valueOf entries "aud")

theorem Acceptable.accepted {rules : Rules} {now : Nat} {token : List Char} {entries : Entries Tree}
    (acceptable : Acceptable rules now token entries) :
    ∃ claims, rules.accept now token = .ok claims ∧ Claims.Reads entries claims := by
  obtain ⟨parts, payload, claims, cut, vouches, payload_read, reads, lasting, issued, addressed⟩ :=
    acceptable
  obtain ⟨payload', payload_read', claimed⟩ := vouches.payload
  obtain ⟨entries', reads', are⟩ := Claims.ofBytes_eq_ok_iff.mp claimed
  cases payload_read.symm.trans payload_read'
  cases reads.symm.trans reads'
  refine ⟨claims, Rules.accept_eq_ok_iff.mpr ⟨parts, cut, vouches, lasting, fun issuer asked => ?_,
    fun audience asked => ?_⟩, are⟩
  · exact are.from_issuer_iff.mpr (issued issuer asked)
  · rw [← are.audience]
    exact addressed audience asked

/-- A payload that is signed with the shared secret is acceptable, if it makes claims and names a
time to come, where no issuer and no audience is asked for. -/
theorem acceptable_signed {rules : Rules} {secret : Bytes} (key : rules.key = .secret secret)
    (issuer : rules.issuer = none) (audience : rules.audience = none) {payload : Bytes}
    {entries : Entries Tree} (reads : Json.Reads payload (.object entries)) {claims : Claims}
    (claim : Claims.ofEntries entries = .ok claims) {now : Nat}
    (lasting : now ≤ claims.expires + 60) :
    Acceptable rules now (Parts.signed secret secretHeader payload).toToken entries := by
  have algorithm : Header.algorithm secretHeader = .ok .hs256 :=
    Header.algorithm_of_reads reads_secretHeader (.refl _) rfl
  have claimed : Claims.ofBytes payload = .ok claims :=
    Claims.ofBytes_eq_ok_iff.mpr ⟨entries, reads, Claims.ofEntries_eq_ok_iff.mp claim⟩
  refine ⟨_, payload, claims, Parts.splitAll_signed, key ▸ Key.vouches_signed algorithm claimed,
    Key.partBytes_partOf payload, reads, lasting, ?_, ?_⟩
  · intro _ asked
    rw [issuer] at asked
    cases asked
  · intro _ asked
    rw [audience] at asked
    cases asked

namespace Rules

variable {rules : Rules} {now : Nat} {request : Request} {token : List Char} {claims : Claims}

theorem extract_of_accepted (carries : Carries request token)
    (accepted : rules.accept now token = .ok claims) :
    rules.extract now request = (rules.credentials claims).map some := by
  simp only [extract, token?_eq_some_iff.mpr carries, accepted, bind, Except.bind]
  cases rules.credentials claims <;> rfl

/-- Credentials of claims that name a user. -/
theorem credentials_of_user {user : String} (named : claims.user? rules.subjectName = some user) :
    ∃ credentials, rules.credentials claims = .ok credentials ∧ credentials.username = user ∧
      credentials.evidence = .established ∧
      ∀ role, credentials.roles.contains role = true ↔ role ∈ claims.roles rules.rolesName := by
  obtain ⟨credentials, established⟩ := exists_credentials named
  obtain ⟨user', evidence, roles⟩ := credentials_eq_ok established
  have same : credentials.username = user := Option.some.inj (user'.symm.trans named)
  refine ⟨credentials, established, same, evidence, fun role => ?_⟩
  rw [roles, NameSet.contains_ofNames]

/-- Under the name of a claim with a meaning of its own that is not the subject nobody is found. -/
theorem extract_of_reserved (carries : Carries request token) {entries : Entries Tree}
    (acceptable : Acceptable rules now token entries)
    (reserved : rules.subjectName ∈ ["exp", "iat", "iss", "aud"]) :
    rules.extract now request = .error (.invalidToken (.noSubject rules.subjectName)) := by
  obtain ⟨claims, accepted, reads⟩ := acceptable.accepted
  have nobody : claims.user? rules.subjectName = none := by
    cases found : claims.user? rules.subjectName with
    | none => rfl
    | some user =>
      obtain ⟨_, usual, _⟩ := (Claims.user?_eq_some_iff reads).mp found
      rw [usual (List.mem_cons_of_mem _ reserved)] at reserved
      exact absurd reserved (by decide)
  rw [extract_of_accepted carries accepted, credentials, nobody]
  rfl

end Rules

/-- **The user and the roles of an acceptable token** with a text that is not empty under the name
for users. Unless this is the name of the issuer, of the audience or of a time, the text is the
user, and the roles are those in the value under the name for roles, if that is no claim with a
meaning of its own, and else there are none. Under the name of the issuer, of the audience or of a
time no user is found. -/
theorem extract_of_names {rules : Rules} {now : Nat} {request : Request} {token : List Char}
    {entries : Entries Tree} {user : String} (carries : Rules.Carries request token)
    (acceptable : Acceptable rules now token entries)
    (given : Entries.find? rules.subjectName entries.reverse = some (.text user))
    (named : user ≠ "") :
    (rules.subjectName ∉ ["exp", "iat", "iss", "aud"] →
      ∃ credentials, rules.extractor.extract now request = .ok (some credentials) ∧
        credentials.username = user ∧ credentials.evidence = .established ∧
        ∀ role, credentials.roles.contains role = true ↔
          rules.rolesName ∉ ["sub", "exp", "iat", "iss", "aud"] ∧
          ∃ value, Entries.find? rules.rolesName entries.reverse = some value ∧
            Claims.Grants value role) ∧
    (rules.subjectName ∈ ["exp", "iat", "iss", "aud"] →
      rules.extractor.extract now request =
        .error (.invalidToken (.noSubject rules.subjectName))) := by
  rw [Rules.extract_extractor]
  refine ⟨fun other => ?_, Rules.extract_of_reserved carries acceptable⟩
  obtain ⟨claims, accepted, reads⟩ := acceptable.accepted
  have usual : rules.subjectName ∈ Claims.knownNames → rules.subjectName = Claims.subjectName := by
    intro known
    rcases List.mem_cons.mp known with same | elsewhere
    · exact same
    · exact (other elsewhere).elim
  obtain ⟨credentials, established, same, evidence, roles⟩ :=
    Rules.credentials_of_user ((Claims.user?_eq_some_iff reads).mpr ⟨named, usual, given⟩)
  rw [Rules.extract_of_accepted carries accepted, established]
  exact ⟨credentials, rfl, same, evidence,
    fun role => (roles role).trans (Claims.mem_roles_iff reads)⟩

/-- Rules that take the user and the roles from names of their own. -/
def cadetRules : Rules :=
  ⟨.secret (Text.encode "enterprise"), none, none, "preferred_username", "groups"⟩

/-- Entries under these names. -/
def cadet : Entries Tree :=
  [("sub", .text "id-42"), ("exp", .int 4102444800), ("preferred_username", .text "data"),
    ("groups", .text "ops, crew,, ops")]

theorem extract_cadet :
    ∃ credentials, cadetRules.extractor.extract 1700000000 (Parts.signed (Text.encode "enterprise")
        secretHeader (Text.encode (Tree.object cadet).toJson)).toRequest = .ok (some credentials) ∧
      credentials.username = "data" ∧ credentials.roles.contains "crew" = true ∧
      credentials.roles.contains "" = false := by
  have claimed : Claims.ofEntries cadet = .ok ⟨some "id-42", 4102444800, none, .null,
      Table.ofList [("preferred_username", .text "data"), ("groups", .text "ops, crew,, ops")]⟩ :=
    rfl
  have acceptable : Acceptable cadetRules 1700000000 _ cadet :=
    acceptable_signed rfl rfl rfl (Json.reads_flat (by decide)) claimed (by decide)
  have named : "data" ≠ "" := by decide
  obtain ⟨credentials, extracted, user, _, roles⟩ :=
    (extract_of_names Rules.carries_toRequest acceptable rfl named).1 (by decide)
  refine ⟨credentials, extracted, user, (roles "crew").mpr ⟨by decide, _, rfl, ?_⟩, ?_⟩
  · exact Claims.grants_text_iff.mpr (by decide +kernel)
  · refine Bool.eq_false_iff.mpr fun contained => ?_
    obtain ⟨_, _, found, grants⟩ := (roles "").mp contained
    cases found
    exact absurd (Claims.grants_text_iff.mp grants) (by decide +kernel)

/-- Settings that take the user from the issuer. -/
def fleetwide : Settings :=
  .ofTree (.object [("signing_key", .text "enterprise"), ("subject_key", .text "iss")])

/-- The rules of these settings. -/
def fleetwideRules : Rules :=
  ⟨.secret (Text.encode "enterprise"), none, none, "iss", Claims.rolesName⟩

theorem built_fleetwide : TypeTable.buildBearer fleetwide = .ok fleetwideRules.extractor := by
  have configures : Configures fleetwide (.secret (Text.encode "enterprise")) :=
    ⟨by decide +kernel, "enterprise", by decide +kernel, rfl⟩
  exact buildBearer_eq_ok_iff.mpr ⟨fleetwideRules, ⟨configures, by decide +kernel,
    by decide +kernel, by decide +kernel, by decide +kernel⟩, rfl⟩

/-- A token that names its user by the issuer is refused, though it is acceptable. -/
theorem refused_for_issuer :
    let request := (Parts.signed (Text.encode "enterprise") secretHeader agentPayload).toRequest
    fleetwide.text? "subject_key" = some "iss" ∧
    TypeTable.buildBearer fleetwide = .ok fleetwideRules.extractor ∧
    (∃ (token : List Char) (entries : Entries Tree), Rules.Carries request token ∧
      Acceptable fleetwideRules 1700000000 token entries ∧
      Entries.find? "iss" entries.reverse = some (.text "romulus")) ∧
    fleetwideRules.extractor.extract 1700000000 request =
      .error (.invalidToken (.noSubject "iss")) := by
  intro request
  have claimed : Claims.ofEntries [("sub", .text "spock"), ("exp", .int 4102444800),
      ("iss", .text "romulus")] =
    .ok ⟨some "spock", 4102444800, some "romulus", .null, .empty⟩ := rfl
  have acceptable : Acceptable fleetwideRules 1700000000 _ _ :=
    acceptable_signed rfl rfl rfl reads_agentPayload claimed (by decide)
  have carries : Rules.Carries request _ := Rules.carries_toRequest
  refine ⟨by decide +kernel, built_fleetwide, ⟨_, _, carries, acceptable, rfl⟩, ?_⟩
  rw [Rules.extract_extractor]
  exact Rules.extract_of_reserved carries acceptable (by decide)

end Bearer

end Gatehouse
