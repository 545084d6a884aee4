/-
**Tokens that are signed with a shared secret.**

Anyone who knows the shared secret can sign a header and a payload. If the header names the
algorithm of shared secrets, and the payload names a user, a time to come and roles, then the token
is accepted as the word of this user with these roles, however the two are spelled.

* `Parts.signed`, `Parts.toToken`: the token of a header and a payload; `Rules.carries_toRequest`;
* `Header.algorithm_of_reads`: headers that name an algorithm and a type;
* `Claims.reads_of_perm`: payloads that name a user, a time and roles;
* **`Rules.extract_of_signed`**: the credentials that the token establishes;
* `Rules.extract_of_user`: such a token can be written for every user.
-/

import Gatehouse.Proofs.Bearer.Acceptance
import Mathlib.Data.List.Permutation

namespace Gatehouse

open Text (Bytes)

/-! ### Values that are read -/

namespace Json

theorem toTree?_eq_text {depth : Nat} {value : Json} {text : String}
    (read : toTree? depth value = some (.text text)) :
    ∃ content, value = .string content ∧ decodeLiteral? content = some text := by
  cases value with
  | string content =>
    rw [toTree?] at read
    exact ⟨content, rfl, by simpa using read⟩
  | number number =>
    rw [toTree?] at read
    obtain ⟨value, _, same⟩ := Option.map_eq_some_iff.mp read
    cases value <;> cases same
  | _ => cases depth <;> simp [toTree?] at read

theorem toTree?_eq_object {depth : Nat} {value : Json} {entries : List (String × Tree)}
    (read : toTree? (depth + 1) value = some (.object entries)) :
    ∃ raw, value = .object raw ∧ memberTrees? depth raw = some entries := by
  cases value with
  | object raw =>
    rw [toTree?] at read
    exact ⟨raw, rfl, by simpa using read⟩
  | number number =>
    rw [toTree?] at read
    obtain ⟨value, _, same⟩ := Option.map_eq_some_iff.mp read
    cases value <;> cases same
  | _ => simp [toTree?] at read

/-- A member and the entry that it stands for. -/
def StandsFor (depth : Nat) (member : String × Json) (entry : String × Tree) : Prop :=
  member.1 = entry.1 ∧ toTree? depth member.2 = some entry.2

theorem members_of_memberTrees? {depth : Nat} {raw : List (Bytes × Json)}
    {entries : List (String × Tree)} (read : memberTrees? depth raw = some entries) :
    ∃ members, Bearer.Header.members? raw = some members ∧
      List.Forall₂ (StandsFor depth) members entries := by
  induction raw generalizing entries with
  | nil =>
    rw [memberTrees?] at read
    cases read
    exact ⟨[], rfl, .nil⟩
  | cons member rest ih =>
    obtain ⟨key, value⟩ := member
    rw [memberTrees?] at read
    obtain ⟨name, decoded, read⟩ := Option.bind_eq_some_iff.mp read
    obtain ⟨tree, first, read⟩ := Option.bind_eq_some_iff.mp read
    obtain ⟨others, later, same⟩ := Option.bind_eq_some_iff.mp read
    cases same
    obtain ⟨members, named, stand⟩ := ih later
    refine ⟨(name, value) :: members, ?_, .cons ⟨rfl, first⟩ stand⟩
    unfold Bearer.Header.members? at named ⊢
    rw [List.mapM_cons, named]
    simp [decoded]

/-- The members of an object that is read stand for its entries. -/
theorem members_of_reads {bytes : Bytes} {entries : List (String × Tree)}
    (read : Reads bytes (.object entries)) :
    ∃ raw members, parse? bytes = some (.object raw) ∧ Bearer.Header.members? raw = some members ∧
      List.Forall₂ (StandsFor (maxDepth - 1)) members entries := by
  obtain ⟨value, parsed, read⟩ := Option.bind_eq_some_iff.mp read
  obtain ⟨raw, rfl, trees⟩ := @toTree?_eq_object (maxDepth - 1) value entries read
  obtain ⟨members, named, stand⟩ := members_of_memberTrees? trees
  exact ⟨raw, members, parsed, named, stand⟩

end Json

namespace Bearer

/-! ### Tokens of parts -/

/-- The parts of a token for a header and a payload, signed with a shared secret. -/
def Parts.signed (secret header payload : Bytes) : Parts where
  header := Key.partOf header
  payload := Key.partOf payload
  signature := Key.partOf <| Digest.hmacSha256 secret <|
    Text.encode (String.ofList (Key.partOf header ++ '.' :: Key.partOf payload))

/-- The token of parts. -/
def Parts.toToken (parts : Parts) : List Char := ['.'].intercalate parts.toList

theorem Parts.toToken_eq (parts : Parts) :
    parts.toToken = parts.header ++ '.' :: (parts.payload ++ '.' :: parts.signature) := by
  simp [toToken, toList, List.intercalate]

theorem Parts.splitAll_toToken {parts : Parts} (plain : ∀ part ∈ parts.toList, '.' ∉ part) :
    Text.splitAll '.' parts.toToken = parts.toList := by
  rw [toToken_eq, Text.splitAll_append, Text.splitAll_append,
    Text.splitAll_eq_singleton (plain _ (by simp [toList])),
    Text.splitAll_eq_singleton (plain _ (by simp [toList])),
    Text.splitAll_eq_singleton (plain _ (by simp [toList]))]
  rfl

/-- Neither full stops nor blanks stand in the parts of a signed token. -/
theorem Parts.of_mem_signed {secret header payload : Bytes} :
    ∀ part ∈ (signed secret header payload).toList, ∀ c ∈ part,
      c ≠ '.' ∧ Text.isBlank c = false := by
  intro part member c inside
  simp only [toList, signed, List.mem_cons, List.not_mem_nil, or_false] at member
  rcases member with rfl | rfl | rfl <;> exact Key.of_mem_partOf inside

theorem Parts.splitAll_signed {secret header payload : Bytes} :
    Text.splitAll '.' (signed secret header payload).toToken =
      (signed secret header payload).toList :=
  splitAll_toToken fun part member stop => (of_mem_signed part member _ stop).1 rfl

/-- The secret vouches for the claims of a payload that is signed with it. -/
theorem Key.vouches_signed {secret header payload : Bytes} {claims : Claims}
    (named : Header.algorithm header = .ok .hs256) (claimed : Claims.ofBytes payload = .ok claims) :
    (Key.secret secret).Vouches (.signed secret header payload) claims where
  header := ⟨header, Key.partBytes_partOf header, named⟩
  signature := rfl
  payload := ⟨payload, Key.partBytes_partOf payload, claimed⟩

/-! ### Headers -/

namespace Header

/-- A header of an algorithm and a type names the algorithm. -/
theorem algorithm_of_reads {bytes : Bytes} {entries : Entries Tree} {name type : String}
    {algorithm : Algorithm} (read : Json.Reads bytes (.object entries))
    (entries_are : entries.Perm [("alg", .text name), ("typ", .text type)])
    (known : Algorithm.ofName? name = some algorithm) : Header.algorithm bytes = .ok algorithm := by
  obtain ⟨raw, members, parsed, named, stand⟩ := Json.members_of_reads read
  obtain ⟨others, stand, same⟩ := List.perm_comp_forall₂ entries_are.symm stand.flip
  -- the members are those of the algorithm and the type, in some order
  rcases stand with _ | ⟨⟨first, first_read⟩, _ | ⟨⟨second, second_read⟩, _ | _⟩⟩
  next named_value type_value =>
  obtain ⟨_, value⟩ := named_value
  obtain ⟨_, kind⟩ := type_value
  cases first
  cases second
  obtain ⟨content, rfl, decoded⟩ := Json.toTree?_eq_text first_read
  obtain ⟨content', rfl, decoded'⟩ := Json.toTree?_eq_text second_read
  have names : algorithmOf? (.string content) = some algorithm := by
    rw [algorithmOf?, decoded]
    exact known
  have typed : isOptional isText (.string content') = true := by
    show isText (.string content') = true
    rw [isText, text?, decoded']
    rfl
  have whole : ofMembers members = .ok algorithm := by
    rcases List.perm_pair.mp same.symm with rfl | rfl <;>
      simp [ofMembers, repeated?, member?, parameters, algorithmName, names, typed]
  rw [Header.algorithm, parsed]
  simp only [named, whole]

end Header

/-! ### Payloads -/

namespace Claims

theorem canonical_texts (texts : List String) :
    (Tree.list (texts.map .text)).canonical = .list (texts.map .text) := by
  rw [Tree.canonical, Tree.canonicalItems_eq, List.map_map]
  rfl

/-- What a user, a time and roles claim. -/
def ofUser (user : String) (expires : Nat) (roles : List String) : Claims where
  subject := some user
  expires := expires
  issuer := none
  audience := .null
  others := Table.ofList [(rolesName, .list (roles.map .text))]

/-- The entries of a payload for a user, a time and roles. -/
def userEntries (user : String) (expires : Nat) (roles : List String) : Entries Tree :=
  [(subjectName, .text user), ("exp", .int expires), (rolesName, .list (roles.map .text))]

theorem reads_of_perm {user : String} {expires : Nat} {roles : List String} {entries : Entries Tree}
    (entries_are : entries.Perm (userEntries user expires roles)) (bounded : expires < timeBound) :
    Reads entries (ofUser user expires roles) := by
  have single (name : String) :
      ((userEntries user expires roles).filter fun entry => entry.1 = name).length ≤ 1 := by
    have distinct : ((userEntries user expires roles).map (·.1)).Nodup := by
      show ["sub", "exp", "roles"].Nodup
      decide
    have once := List.nodup_iff_count_le_one.mp distinct name
    rwa [List.count, List.countP_map, List.countP_eq_length_filter] at once
  have count (name : String) : countOf entries name ≤ 1 := by
    have same := (entries_are.filter fun entry => decide (entry.1 = name)).length_eq
    exact Nat.le_trans (Nat.le_of_eq same) (single name)
  have value (name : String) : entries.find? name = (userEntries user expires roles).find? name :=
    Entries.find?_of_perm entries_are (single name)
  have last (name : String) :
      Entries.find? name entries.reverse = (userEntries user expires roles).find? name :=
    Entries.find?_of_perm (entries.reverse_perm.trans entries_are) (single name)
  constructor
  case single => exact fun name _ => count name
  case subject => rw [valueOf, value]; rfl
  case expires => exact ⟨by rw [valueOf, value]; rfl, bounded⟩
  case issued => rw [checkIssued, valueOf, value]; rfl
  case issuer => rw [valueOf, value]; rfl
  case notBefore =>
    rw [checkNotBefore, if_neg (Nat.not_lt.mpr (count _)), valueOf, value]
    rfl
  case audience => rw [valueOf, value]; rfl
  case others =>
    intro name
    show (Table.ofList [(rolesName, Tree.list (roles.map .text))]).find? name = _
    rw [Table.find?_ofList, List.reverse_singleton, Entries.find?, Entries.find?_nil, last]
    by_cases roles_name : name = rolesName
    · rw [if_pos roles_name, roles_name, ← canonical_texts]
      rfl
    · rw [if_neg roles_name]
      by_cases known : name ∈ knownNames
      · rw [if_pos known]
      · rw [if_neg known]
        have other : name ≠ subjectName ∧ name ≠ "exp" := by
          constructor <;> rintro rfl <;> exact known (by decide)
        simp [userEntries, Entries.find?, other, roles_name]

end Claims

/-! ### Requests -/

/-- A request with the token of parts in its authentication header. -/
def Parts.toRequest (parts : Parts) : Request :=
  { Request.blank with headers := Table.ofList [("authorization",
      String.ofList (Rules.scheme ++ parts.toToken))] }

namespace Rules

theorem carries_toRequest {secret header payload : Bytes} :
    Carries (Parts.signed secret header payload).toRequest
      (Parts.signed secret header payload).toToken := by
  have visible : ∀ c ∈ (Parts.signed secret header payload).toToken, Text.isBlank c = false := by
    intro c member
    have parts := @Parts.of_mem_signed secret header payload
    simp only [Parts.toList, List.forall_mem_cons] at parts
    rw [Parts.toToken_eq] at member
    simp only [List.mem_append, List.mem_cons] at member
    rcases member with inside | rfl | inside | rfl | inside
    · exact (parts.1 c inside).2
    · rfl
    · exact (parts.2.1 c inside).2
    · rfl
    · exact (parts.2.2.1 c inside).2
  have trimmed : Text.trimBoth (Parts.signed secret header payload).toToken =
      (Parts.signed secret header payload).toToken :=
    Text.trim_of_trimmed ⟨fun c first => visible c (List.mem_of_mem_head? first),
      fun c last => visible c (List.mem_of_mem_getLast? last)⟩
  have given : (Parts.signed secret header payload).toRequest.header? "authorization" =
      some (String.ofList (scheme ++ (Parts.signed secret header payload).toToken)) := by
    rw [Request.header?, Parts.toRequest, Table.find?_ofList]
    rfl
  have carries := Carries.header _ _ given String.toList_ofList
  rwa [trimmed] at carries

/-- It is the only token that the request carries. -/
theorem parts_of_carries {secret header payload : Bytes} {token : List Char} {parts : Parts}
    (carries : Carries (Parts.signed secret header payload).toRequest token)
    (cut : Text.splitAll '.' token = parts.toList) : parts = .signed secret header payload := by
  have same := token?_eq_some_iff.mpr carries
  rw [token?_eq_some_iff.mpr carries_toRequest] at same
  cases same
  rw [Parts.splitAll_signed] at cut
  cases parts
  cases cut
  rfl

theorem credentials_ofUser {rules : Rules} (subject : rules.subjectName = Claims.subjectName)
    (listed : rules.rolesName = Claims.rolesName) {user : String} (named : user ≠ "")
    (expires : Nat) (roles : List String) :
    rules.credentials (.ofUser user expires roles) =
      .ok ⟨user, .established, NameSet.ofNames roles, .empty⟩ := by
  have is_user : (Claims.ofUser user expires roles).user? Claims.subjectName = some user := by
    simp [Claims.user?, Claims.ofUser, named]
  have has_roles : (Claims.ofUser user expires roles).roles Claims.rolesName = roles := by
    have found : (Claims.ofUser user expires roles).others.find? Claims.rolesName =
        some (.list (roles.map .text)) := by
      simp [Claims.ofUser, Table.find?_ofList, Entries.find?]
    rw [Claims.roles, found]
    show (roles.map Tree.text).filterMap Claims.textOf? = roles
    rw [List.filterMap_map]
    exact List.filterMap_some
  have set := Credentials.roles_addRoles_established user roles
  unfold Rules.credentials
  rw [subject, listed, is_user, has_roles]
  show Except.ok ((Credentials.established user).addRoles roles) = _
  rw [← set]
  rfl

/-- **A token that is signed with the shared secret** is accepted as the word of its user, if it
names a time to come. -/
theorem extract_of_signed {rules : Rules} {secret : Bytes} (key : rules.key = .secret secret)
    (subject : rules.subjectName = Claims.subjectName)
    (listed : rules.rolesName = Claims.rolesName) {header payload : Bytes}
    {head body : Entries Tree} (head_read : Json.Reads header (.object head))
    (head_is : head.Perm [("alg", .text "HS256"), ("typ", .text "JWT")])
    (body_read : Json.Reads payload (.object body)) {user : String} {expires : Nat}
    {roles : List String} (body_is : body.Perm (Claims.userEntries user expires roles))
    (named : user ≠ "") {now : Nat} (lasting : now ≤ expires + Claims.leeway)
    (bounded : expires < Claims.timeBound) {request : Request}
    (carries : Carries request (Parts.signed secret header payload).toToken) :
    rules.extract now request = .ok (some ⟨user, .established, NameSet.ofNames roles, .empty⟩) := by
  have algorithm : Header.algorithm header = .ok .hs256 :=
    Header.algorithm_of_reads head_read head_is rfl
  have claimed : Claims.ofBytes payload = .ok (.ofUser user expires roles) :=
    Claims.ofBytes_eq_ok_iff.mpr ⟨body, body_read, Claims.reads_of_perm body_is bounded⟩
  have accepted : rules.accept now (Parts.signed secret header payload).toToken =
      .ok (.ofUser user expires roles) := by
    refine accept_eq_ok_iff.mpr ⟨_, Parts.splitAll_signed, ?_, lasting, ?_, ?_⟩
    · exact key ▸ Key.vouches_signed algorithm claimed
    · exact fun _ _ _ impossible => by cases impossible
    · intro _ _
      constructor <;> (intro _ impossible; cases impossible)
  exact extract_eq_some_iff.mpr
    ⟨_, _, carries, accepted, credentials_ofUser subject listed named expires roles⟩

end Rules

/-! ### Written tokens -/

/-- The header of tokens that are signed with a shared secret, as compact text. -/
def secretHeader : Bytes :=
  Text.encode (Tree.object [("alg", .text "HS256"), ("typ", .text "JWT")]).toJson

theorem reads_secretHeader :
    Json.Reads secretHeader (.object [("alg", .text "HS256"), ("typ", .text "JWT")]) :=
  Json.reads_flat rfl

/-- The payload of a user, a time and roles, as compact text. -/
def Claims.payloadOf (user : String) (expires : Nat) (roles : List String) : Bytes :=
  Text.encode (Tree.object (userEntries user expires roles)).toJson

theorem Claims.reads_payloadOf {expires : Nat} (bounded : expires < timeBound) (user : String)
    (roles : List String) : Json.Reads (payloadOf user expires roles)
      (.object (userEntries user expires roles)) := by
  refine Json.reads_toJson (.object 126 _ fun entry member => ?_)
  simp only [userEntries, List.mem_cons, List.not_mem_nil, or_false] at member
  rcases member with rfl | rfl | rfl
  · exact .text _ _
  · have fits : expires ≤ Json.Number.maxWord := Nat.le_sub_one_of_lt bounded
    refine .int _ _ ⟨Int.le_trans (by decide) (Int.natCast_nonneg expires), ?_⟩
    exact Int.ofNat_le.mpr fits
  · refine .list 125 _ fun item inside => ?_
    obtain ⟨role, _, rfl⟩ := List.mem_map.mp inside
    exact .text _ _

/-- Everyone gets in with a token that is written compactly and signed with the shared secret. -/
theorem Rules.extract_of_user {rules : Rules} {secret : Bytes} (key : rules.key = .secret secret)
    (subject : rules.subjectName = Claims.subjectName)
    (listed : rules.rolesName = Claims.rolesName) {user : String} (named : user ≠ "")
    {now expires : Nat} (lasting : now ≤ expires + Claims.leeway)
    (bounded : expires < Claims.timeBound) (roles : List String) :
    rules.extract now
        (Parts.signed secret secretHeader (Claims.payloadOf user expires roles)).toRequest =
      .ok (some ⟨user, .established, NameSet.ofNames roles, .empty⟩) :=
  extract_of_signed key subject listed reads_secretHeader (.refl _)
    (Claims.reads_payloadOf bounded user roles) (.refl _) named lasting bounded carries_toRequest

end Bearer

end Gatehouse
