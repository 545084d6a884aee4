/-
**Hashing and verifying agree.**

A stored hash is checked by computing the digest of the presented password with the cost or the
parameters and the salt that the hash names. For a hash that was written for a password these are the
ones that it was written with, so that the password itself is accepted, and any other one only if it
has the same digest.

* `Digest.length_blake2b`, `Bcrypt.length_digest`: how long digests are;
* **`Bcrypt.verify_of_hash`**, **`Argon2.verify_store`**: which passwords a written hash accepts;
* **`Password.verify_agrees_with_hash`**: the password that a hash was written for is accepted, the empty
  password and hashes of other kinds are errors.
-/

import Gatehouse.Proofs.Password.Written

namespace Gatehouse

open Text (Bytes)

/-! ### Lengths of digests -/

namespace Digest

theorem Blake2b.length_absorb {state : List UInt64} (eight : state.length = 8) (block : Bytes)
    (read : Nat) (last : Bool) : (absorb state block read last).length = 8 := by
  simp only [absorb, List.length_zipWith, List.length_take, List.length_drop, Vector.length_toList,
    eight]
  rfl

theorem Blake2b.length_absorbAll {state : List UInt64} (eight : state.length = 8) (count read : Nat)
    (message : Bytes) : (absorbAll count state read message).length = 8 := by
  induction count generalizing state read message with
  | zero => exact eight
  | succ count ih =>
    rw [absorbAll]
    split
    · exact length_absorb eight _ _ _
    · exact ih (length_absorb eight _ _ _) _ _

theorem length_blake2b {length : Nat} (short : length ≤ 64) (message : Bytes) :
    (blake2b length message).length = length := by
  have words : ∀ words : List UInt64,
      (words.flatMap fun word => toLittle 8 word.toNat).length = 8 * words.length := by
    intro words
    induction words with
    | nil => rfl
    | cons word rest ih =>
      rw [List.flatMap_cons, List.length_append, ih, length_toLittle, List.length_cons]
      omega
  rw [blake2b, List.length_take, words, Blake2b.length_absorbAll (by rfl)]
  omega

theorem length_blake2bLong {length : Nat} (short : length ≤ 64) (message : Bytes) :
    (blake2bLong length message).length = length := by
  unfold blake2bLong
  dsimp only
  rw [if_pos short]
  exact length_blake2b short _

end Digest

/-! ### Bcrypt hashes -/

namespace Bcrypt

theorem length_digest (cost : Nat) (salt password : Bytes) :
    (digest cost salt password).length = 23 := by
  simp only [digest, plainWords, List.flatMap_cons, List.flatMap_nil, List.length_take,
    List.length_append, Digest.length_toBytes, List.length_nil]
  rfl

/-- **A written hash accepts the passwords with the same digest**, under the salt and at the cost that
it was written with. -/
theorem verify_of_hash {cost : Nat} {salt : Bytes} (admitted : admitsCost cost = true)
    (salted : salt.length = 16) (password : Bytes) :
    ∃ stored, hash cost salt password = .ok stored ∧
      (∃ rest, stored.toList = '$' :: '2' :: rest) ∧
      ∀ secret, verify secret stored =
        .ok (decide (digest cost salt password = digest cost salt secret)) := by
  refine ⟨_, if_pos admitted, ⟨_, String.toList_ofList⟩, fun secret => ?_⟩
  rw [verify, String.toList_ofList, split?_written admitted salted (length_digest ..)]
  simp only [unsymbols?_symbols, admitted, Bool.not_true, Bool.false_eq_true, if_false]

end Bcrypt

/-! ### Hash strings -/

namespace Argon2

theorem length_hash {p : Parameters} (short : p.length ≤ 64) (password salt : Bytes) :
    (hash p password salt).length = p.length :=
  Digest.length_blake2bLong short _

/-- The usual parameters in writing. -/
def written : List (List Char × List Char) :=
  [(['m'], Nat.toDigits 10 defaults.memory), (['t'], Nat.toDigits 10 defaults.passes),
    (['p'], Nat.toDigits 10 defaults.lanes)]

/-- The fields of a hash string with the usual parameters. -/
def fields (salt output : Bytes) : Phc :=
  ⟨defaults.variety.name, some defaults.version.number, written, some (Phc.symbols salt),
    some output⟩

theorem toList_store (salt password : Bytes) :
    (store salt password).toList = (fields salt (hash defaults password salt)).toChars :=
  String.toList_ofList

theorem isComplete_fields {salt output : Bytes} (long : 8 ≤ salt.length) (short : salt.length ≤ 48)
    (sized : output.length = 32) : (fields salt output).IsComplete where
  algorithm := show Phc.isName defaults.variety.name = true by decide
  version := ⟨19, rfl, by decide⟩
  some_parameter := List.cons_ne_nil _ _
  parameter := show ∀ parameter ∈ written, Phc.isName parameter.1 = true ∧
    Phc.isValue parameter.2 = true by decide
  short := show (Phc.parameterChars written).length ≤ 127 by decide
  salt := by
    have symbols : (Phc.symbols salt).length = (4 * salt.length + 2) / 3 :=
      Base64.length_chars Base64.standard salt
    refine ⟨_, rfl, ?_⟩
    rw [Phc.isSalt, Phc.all_symbols, symbols, decide_eq_true (by omega), decide_eq_true (by omega)]
    rfl
  output := ⟨_, rfl, by omega, by omega⟩

/-- The usual parameters are read back. -/
theorem parametersOf_fields {salt output : Bytes} :
    parametersOf (fields salt output) .hybrid 32 = .ok defaults := by
  have read : written.foldlM withParameter?
      { defaults with variety := .hybrid, version := .v19, length := 32 } = some defaults := by
    decide +kernel
  have version : (some defaults.version.number).map Version.ofNumber? = some (some .v19) := rfl
  unfold parametersOf
  dsimp only [fields, bind, Except.bind]
  rw [version]
  dsimp only
  rw [read]
  exact if_pos (by decide)

/-- **A written hash string accepts the passwords with the same hash**, under its salt. -/
theorem verify_store {salt : Bytes} (long : 8 ≤ salt.length) (short : salt.length ≤ 48)
    (password secret : Bytes) :
    verify secret (store salt password) =
      .ok (decide (hash defaults secret salt = hash defaults password salt)) := by
  have sized : (hash defaults password salt).length = 32 := length_hash (by decide) _ _
  have variety : Variety.ofName? defaults.variety.name = some .hybrid := by decide
  have compared : ∀ output : Bytes, output.length = 32 →
      matchesOutput (fields salt output) .hybrid output secret =
        .ok (decide (hash defaults secret salt = output)) := by
    intro output sized
    rw [matchesOutput, sized, parametersOf_fields]
    simp only [fields, bind, Except.bind, Phc.bytes?_symbols]
    exact if_neg (Nat.not_lt_of_le long)
  rw [verify, toList_store, Phc.parse?_toChars (isComplete_fields long short sized)]
  simp only [fields, variety]
  exact compared _ sized

end Argon2

/-! ### Passwords -/

namespace Password

/-- Hashes of other kinds are refused, whatever the password is. -/
theorem verify_of_unsupported {stored : String} (argon2 : ¬argon2Start <+: stored.toList)
    (bcrypt : ¬bcryptStart <+: stored.toList) (password : Bytes) :
    ∃ error, verify password stored = .error error := by
  rw [← List.isPrefixOf_iff_prefix] at argon2 bcrypt
  rw [verify, verifyStored, if_neg argon2, if_neg bcrypt]
  split <;> exact ⟨_, rfl⟩

theorem verifyStored_of_bcrypt {stored : String} {rest : List Char}
    (begins : stored.toList = '$' :: '2' :: rest) (password : Bytes) :
    verifyStored password stored = Bcrypt.verify password stored := by
  rw [verifyStored, begins]
  rfl

theorem verifyStored_of_argon2 (salt password secret : Bytes) :
    verifyStored secret (Argon2.store salt password) =
      Argon2.verify secret (Argon2.store salt password) := by
  refine if_pos (List.isPrefixOf_iff_prefix.mpr ?_)
  rw [Argon2.toList_store]
  exact ⟨_, rfl⟩

/-- A password that is not empty is compared. -/
theorem verify_of_ne_nil {password : Bytes} {stored : String} {verdict : Bool}
    (nonempty : password ≠ []) (compared : verifyStored password stored = .ok verdict) :
    verify password stored = .ok verdict := by
  rw [verify, if_neg fun empty => nonempty (List.isEmpty_iff.mp empty), compared]
  rfl

/-- Of a bcrypt hash, which passwords it accepts. -/
theorem verify_of_bcrypt {cost : Nat} {salt : Bytes} (admitted : Bcrypt.admitsCost cost = true)
    (salted : salt.length = 16) (password : Bytes) :
    ∃ stored, Bcrypt.hash cost salt password = .ok stored ∧ ∀ secret, secret ≠ [] →
      verify secret stored =
        .ok (decide (Bcrypt.digest cost salt password = Bcrypt.digest cost salt secret)) := by
  obtain ⟨stored, hashed, ⟨rest, begins⟩, compared⟩ :=
    Bcrypt.verify_of_hash admitted salted password
  exact ⟨stored, hashed, fun secret nonempty =>
    verify_of_ne_nil nonempty ((verifyStored_of_bcrypt begins secret).trans (compared secret))⟩

/-- **Hashing and verifying agree.** A bcrypt hash of a password, at any admitted cost and under any
salt, accepts the password, and so does an Argon2 hash string under any salt of a length that it can
have. For the empty password every stored hash is an error, and a stored hash of another kind is one
for every password. -/
theorem verify_agrees_with_hash :
    (∀ cost salt password, password ≠ [] → Bcrypt.admitsCost cost = true → salt.length = 16 →
      ∃ stored, Bcrypt.hash cost salt password = .ok stored ∧ verify password stored = .ok true) ∧
    (∀ salt password, password ≠ [] → 8 ≤ salt.length → salt.length ≤ 48 →
      verify password (Argon2.store salt password) = .ok true) ∧
    (∀ stored, verify [] stored = .error .emptyCredential) ∧
    (∀ stored password, ¬argon2Start <+: stored.toList → ¬bcryptStart <+: stored.toList →
      ∃ error, verify password stored = .error error) := by
  refine ⟨fun cost salt password nonempty admitted salted => ?_,
    fun salt password nonempty long short => ?_,
    fun stored => rfl, fun stored password argon2 bcrypt =>
      verify_of_unsupported argon2 bcrypt password⟩
  · obtain ⟨stored, hashed, compared⟩ := verify_of_bcrypt admitted salted password
    refine ⟨stored, hashed, (compared password nonempty).trans ?_⟩
    rw [decide_eq_true rfl]
  · refine verify_of_ne_nil nonempty ?_
    rw [verifyStored_of_argon2, Argon2.verify_store long short, decide_eq_true rfl]

/-- A password under a salt of sixteen bytes, in both forms. -/
theorem verify_agrees_with_hash_spock :
    let salt := List.replicate 16 (7 : UInt8)
    let password := Text.encode "spock"
    (∃ stored, Bcrypt.hash 4 salt password = .ok stored ∧ verify password stored = .ok true) ∧
      verify password (Argon2.store salt password) = .ok true ∧
      ∃ error, verify password "plaintext" = .error error := by
  intro salt password
  have nonempty : password ≠ [] := by decide +kernel
  obtain ⟨bcrypt, argon2, -, unsupported⟩ := verify_agrees_with_hash
  exact ⟨bcrypt 4 salt password nonempty (by decide) (by decide),
    argon2 salt password nonempty (by decide) (by decide),
    unsupported "plaintext" password (by decide) (by decide)⟩

end Password

end Gatehouse
