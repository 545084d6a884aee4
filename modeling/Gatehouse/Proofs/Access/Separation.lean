/-
**Users beside each other.**

The names of users may have dots, and the path of a field is a name and the field with a dot between
them. So the path of a field can be the name of another user, who is then found in its place: a user
`spock.hash` hides the hash of the user `spock`, and a user `spock.roles` hides the roles. No other
entry of a document touches what is found of a user.

* `Internal.overlays`: another user has the path of a field as its name;
* `Internal.entryAt_of_hasEntry`: what a look-up makes of the entry of a user;
* **`Internal.findUser_of_own_entry`**: a user with a hash is found with the own entry, whatever else
  the document holds, unless a field is overlaid.
-/

import Gatehouse.Proofs.Access.Users

namespace Gatehouse.Internal

/-- Whether another user has the path of a field of a user as its name. -/
def overlays (users : Settings) (username field : String) : Bool :=
  (users.entries.find? (username ++ "." ++ field)).isSome

/-- An object is neither a text nor a list of texts. -/
theorem scalarText?_of_isObject {tree : Tree} (object : tree.isObject = true) :
    tree.scalarText? = none := by
  cases tree with
  | object entries => rfl
  | _ => cases object

section Records

variable {users : Settings} (records : users.HoldsRecords) {username : String} {entry : UserEntry}

include records

/-- An overlaid field holds the record of the other user. -/
theorem get?_of_overlays {field : String} (named : field ≠ "") (dotless : '.' ∉ field.toList)
    (overlaid : overlays users username field = true) :
    ∃ record : Tree, record.isObject = true ∧
      users.get? (username ++ "." ++ field) = some record := by
  obtain ⟨record, found⟩ := Option.isSome_iff_exists.mp overlaid
  refine ⟨record, (records _ (Entries.mem_of_find? found)).object, ?_⟩
  rw [records.get?_field username named dotless, found, Option.some_or]

/-- A field that is not overlaid is that of the record under the name. -/
theorem get?_of_not_overlays {field : String} (named : field ≠ "") (dotless : '.' ∉ field.toList)
    (bare : overlays users username field = false) {record : Tree}
    (found : users.entries.find? username = some record) :
    users.get? (username ++ "." ++ field) = Entries.find? field record.members := by
  rw [records.get?_field username named dotless, Option.isSome_eq_false_iff.mp bare |>
    Option.isNone_iff_eq_none.mp, Option.none_or, found, Option.bind_some]

/-- **A look-up under the name of a user** gives the entry there, but for what is overlaid: without the
hash there is nothing, without the roles there are none. -/
theorem entryAt_of_hasEntry (stands : HasEntry users username entry) : entryAt users username =
    if overlays users username "hash" then none
    else some ⟨entry.hash, if overlays users username "roles" then [] else entry.roles⟩ := by
  obtain ⟨record, found, hash, roles⟩ := stands
  have hash? : users.text? (username ++ "." ++ "hash") =
      if overlays users username "hash" then none else some entry.hash := by
    unfold Settings.text?
    cases overlaid : overlays users username "hash" with
    | true =>
      obtain ⟨other, object, stored⟩ := get?_of_overlays records (by decide) (by decide) overlaid
      rw [stored, Option.bind_some, scalarText?_of_isObject object]
      rfl
    | false =>
      rw [get?_of_not_overlays records (by decide) (by decide) overlaid found]
      exact hash
  have roles? : users.texts (username ++ "." ++ "roles") =
      if overlays users username "roles" then [] else entry.roles := by
    unfold Settings.texts
    cases overlaid : overlays users username "roles" with
    | true =>
      obtain ⟨other, object, stored⟩ := get?_of_overlays records (by decide) (by decide) overlaid
      obtain ⟨entries, rfl⟩ := Tree.isObject_iff.mp object
      rw [stored]
      rfl
    | false =>
      rw [get?_of_not_overlays records (by decide) (by decide) overlaid found]
      exact roles
  rw [String.append_assoc] at hash? roles?
  unfold entryAt
  rw [show ".hash" = "." ++ "hash" by decide, show ".roles" = "." ++ "roles" by decide, hash?, roles?]
  cases overlays users username "hash" <;> rfl

/-- **A user is found with the own entry, whatever other users there are**, unless one of them has the
path of the hash or of the roles as its name. For a document of records under any names, and a user
with a hash:

* if neither field is overlaid, the hash and the roles that are found are those of the entry, and
  credentials are checked against them; in every other document with the same entry that overlays
  neither field the same is found;
* if only the roles are overlaid, the user is found without any roles;
* if the hash is overlaid, the own entry is not found at all: only an alias can make the user known. -/
theorem findUser_of_own_entry (stands : HasEntry users username entry) :
    (overlays users username "hash" = false → overlays users username "roles" = false →
      findUser users username = some entry ∧
      (∀ credentials, credentials.username = username →
        authenticateAmong users credentials = check credentials entry) ∧
      ∀ others : Settings, others.HoldsRecords →
        others.entries.find? username = users.entries.find? username →
        overlays others username "hash" = false → overlays others username "roles" = false →
        findUser others username = findUser users username) ∧
    (overlays users username "hash" = false → overlays users username "roles" = true →
      findUser users username = some ⟨entry.hash, []⟩) ∧
    (overlays users username "hash" = true →
      findUser users username = (aliasKey? users username).bind (entryAt users)) := by
  have own {documents : Settings} (records : documents.HoldsRecords)
      (stands : HasEntry documents username entry)
      (hash : overlays documents username "hash" = false)
      (roles : overlays documents username "roles" = false) :
      findUser documents username = some entry := by
    unfold findUser
    rw [entryAt_of_hasEntry records stands, hash, roles]
    rfl
  refine ⟨fun hash roles => ⟨own records stands hash roles, ?_, ?_⟩, fun hash roles => ?_,
    fun hash => ?_⟩
  · rintro credentials rfl
    unfold authenticateAmong
    rw [own records stands hash roles]
  · intro others otherRecords same otherHash otherRoles
    have stands' : HasEntry others username entry := by
      obtain ⟨record, found, fields⟩ := stands
      exact ⟨record, same.trans found, fields⟩
    rw [own records stands hash roles, own otherRecords stands' otherHash otherRoles]
  · unfold findUser
    rw [entryAt_of_hasEntry records stands, hash, roles]
    rfl
  · unfold findUser
    rw [entryAt_of_hasEntry records stands, hash]
    rfl

end Records

/-- Users with names that continue each other. -/
def bridge : Settings := .ofTree (.object [
  ("kirk", .object [("hash", .text "h1"), ("roles", .list [.text "captain"])]),
  ("kirk.roles.hash", .object [("hash", .text "h2")]),
  ("kirk.t", .object [("hash", .text "h3"), ("roles", .text "admiral")])])

/-- A user whose name is the beginning of two others. -/
theorem findUser_of_own_entry_bridge :
    bridge.HoldsRecords ∧ HasEntry bridge "kirk" ⟨"h1", ["captain"]⟩ ∧
    overlays bridge "kirk" "hash" = false ∧ overlays bridge "kirk" "roles" = false ∧
    findUser bridge "kirk" = some ⟨"h1", ["captain"]⟩ := by
  have records : bridge.HoldsRecords := by decide +kernel
  have found : bridge.entries.find? "kirk" = some (.object [("hash", .text "h1"),
      ("roles", .list [.text "captain"])]) := by decide +kernel
  have stands : HasEntry bridge "kirk" ⟨"h1", ["captain"]⟩ := ⟨_, found, rfl, rfl⟩
  have hash : overlays bridge "kirk" "hash" = false := by decide +kernel
  have roles : overlays bridge "kirk" "roles" = false := by decide +kernel
  exact ⟨records, stands, hash, roles, ((findUser_of_own_entry records stands).1 hash roles).1⟩

/-- A user whose name is the path of the hash of another one. -/
def impostor : Settings := .ofTree (.object [("spock", .object [("hash", .text "h1")]),
  ("spock.hash", .object [("hash", .text "h2")])])

/-- The user with the overlaid hash is not found, and is found once the other one is gone. -/
theorem findUser_impostor :
    impostor.HoldsRecords ∧ HasEntry impostor "spock" ⟨"h1", []⟩ ∧
    findUser impostor "spock" = none ∧
    findUser (.ofTree (.object [("spock", .object [("hash", .text "h1")])])) "spock" =
      some ⟨"h1", []⟩ := by
  have found : impostor.entries.find? "spock" = some (.object [("hash", .text "h1")]) := by
    decide +kernel
  exact ⟨by decide +kernel, ⟨_, found, rfl, rfl⟩, by decide +kernel, by decide +kernel⟩

/-- An alias makes it worse: the other user answers to the name, with a hash of its own. -/
example : findUser (.ofTree (.object [("spock", .object [("hash", .text "h1")]),
    ("spock.hash", .object [("hash", .text "h2"), ("username", .text "spock")])])) "spock" =
      some ⟨"h2", []⟩ := by decide +kernel

end Gatehouse.Internal
