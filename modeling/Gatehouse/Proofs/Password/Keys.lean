/-
**The keys of passwords.**

Bcrypt ends a password with a zero byte and repeats it until it fills a key of seventy-two bytes, which
is all that the cipher takes from it. Two passwords with the same key are the same to it: what stands
behind the seventy-second byte does not count, nor does a repetition of the password behind a zero
byte. Within the limit a byte that is not zero makes another key; then only two keys with the same
digest can make the longer password pass for the shorter one.

* `Bcrypt.keyStream`: the key of a password; **`Bcrypt.digest_eq_of_keyStream_eq`**;
* `Bcrypt.keyStream_append_of_long`, `Bcrypt.keyStream_repeat`, `Bcrypt.keyStream_append_ne`: when a
  longer password has the same key;
* `Bcrypt.Collide`: different keys with the same digest;
* **`Password.verify_longer`**: when a longer password is accepted; `Password.verify_behind_limit`.
-/

import Gatehouse.Proofs.Password.Agreement

namespace Gatehouse

open Text (Bytes)

namespace Bcrypt

open Blowfish

variable {first second password more salt : Bytes}

/-! ### What a digest depends on -/

/-- A byte of the key of a password, which is repeated as often as it takes. -/
def keyByte (password : Bytes) (index : Nat) : UInt8 :=
  (keyOf password).getD (index % (keyOf password).length) 0

/-- The bytes that the cipher takes from the key of a password. -/
def keyStream (password : Bytes) : Bytes := (List.range keyLimit).map (keyByte password)

theorem keyStream_eq_iff :
    keyStream first = keyStream second ↔
      ∀ index < keyLimit, keyByte first index = keyByte second index := by
  simp only [keyStream, List.map_inj_left, List.mem_range]

theorem cycle_keyOf (password : Bytes) :
    cycle 18 (keyOf password) = (List.range 18).map fun index =>
      Digest.word32 ((List.range 4).map fun place => keyByte password (4 * index + place)) := by
  simp only [cycle, keyByte, Array.getD_eq_getD_getElem?, List.getElem?_toArray, List.size_toArray,
    List.getD_eq_getElem?_getD]

/-- The words of a key are made up of its bytes. -/
theorem cycle_eq_of_keyStream_eq (same : keyStream first = keyStream second) :
    cycle 18 (keyOf first) = cycle 18 (keyOf second) := by
  rw [cycle_keyOf, cycle_keyOf]
  refine List.map_congr_left fun index inside => congrArg _ (List.map_congr_left fun place near => ?_)
  refine keyStream_eq_iff.mp same _ ?_
  have := List.mem_range.mp inside
  have := List.mem_range.mp near
  show _ < 72
  omega

theorem addKey_congr {key other : Bytes} (same : cycle 18 key = cycle 18 other) (table : Blowfish.Table) :
    addKey key table = addKey other table := by
  rw [addKey, same, ← addKey]

theorem expand_congr {key other : Bytes} (same : cycle 18 key = cycle 18 other) (salt : Bytes)
    (table : Blowfish.Table) : expand salt key table = expand salt other table := by
  rw [expand, addKey_congr same, ← expand]

theorem strengthen_congr {key other : Bytes} (same : cycle 18 key = cycle 18 other) (salt : Bytes)
    (count : Nat) (table : Blowfish.Table) :
    strengthen salt key count table = strengthen salt other count table := by
  induction count generalizing table with
  | zero => rfl
  | succ count ih => rw [strengthen, strengthen, expand_congr same, ih]

/-- **Passwords with the same key have the same digest.** -/
theorem digest_eq_of_keyStream_eq (same : keyStream first = keyStream second) (cost : Nat)
    (salt : Bytes) : digest cost salt first = digest cost salt second := by
  have words := cycle_eq_of_keyStream_eq same
  unfold digest
  dsimp only
  rw [expand_congr words, strengthen_congr words]

/-! ### Longer passwords -/

/-- What stands behind the limit does not count. -/
theorem keyStream_append_of_long (long : keyLimit ≤ password.length) (more : Bytes) :
    keyStream (password ++ more) = keyStream password := by
  have same : keyOf (password ++ more) = keyOf password := by
    rw [keyOf, keyOf, List.append_assoc, List.take_append_of_le_length long,
      List.take_append_of_le_length long]
  exact keyStream_eq_iff.mpr fun index _ => by rw [keyByte, keyByte, same]

/-- Within the limit the zero byte that ends a password is part of its key. -/
theorem keyOf_of_short (short : password.length < keyLimit) : keyOf password = password ++ [0] := by
  rw [keyOf, List.take_of_length_le]
  rw [List.length_append]
  exact short

/-- The first bytes of a key are those of the password and the zero byte behind it. -/
theorem keyByte_of_le {index : Nat} (within : index < keyLimit) (inside : index ≤ password.length) :
    keyByte password index = (password ++ [0]).getD index 0 := by
  have long : index < (keyOf password).length := by
    rw [keyOf, List.length_take, List.length_append, List.length_singleton]
    omega
  rw [keyByte, Nat.mod_eq_of_lt long, List.getD_eq_getElem?_getD, keyOf,
    List.getElem?_take_of_lt within, ← List.getD_eq_getElem?_getD]

/-- A byte that is not zero makes another key, if it stands within the limit. -/
theorem keyStream_append_ne (short : password.length < keyLimit) {byte : UInt8} (visible : byte ≠ 0)
    (rest : Bytes) : keyStream (password ++ byte :: rest) ≠ keyStream password := by
  intro same
  have here := keyStream_eq_iff.mp same password.length short
  have ends : (password ++ [0]).getD password.length 0 = 0 := by simp
  have goes : (password ++ byte :: rest ++ [0]).getD password.length 0 = byte := by simp
  rw [keyByte_of_le short (Nat.le_refl _), keyByte_of_le short (by simp), ends, goes] at here
  exact visible here

theorem getD_append_self {word : Bytes} {index : Nat} (inside : index < 2 * word.length) :
    (word ++ word).getD index 0 = word.getD (index % word.length) 0 := by
  simp only [List.getD_eq_getElem?_getD]
  by_cases first : index < word.length
  · rw [List.getElem?_append_left first, Nat.mod_eq_of_lt first]
  · have second := Nat.le_of_not_lt first
    rw [List.getElem?_append_right second, Nat.mod_eq_sub_mod second, Nat.mod_eq_of_lt (by omega)]

/-- A password that is repeated behind a zero byte has the same key. -/
theorem keyStream_repeat (password : Bytes) :
    keyStream (password ++ 0 :: password) = keyStream password := by
  by_cases short : password.length < keyLimit
  case neg => exact keyStream_append_of_long (Nat.le_of_not_lt short) _
  case pos =>
    let word := password ++ [0]
    have twice : keyOf (password ++ 0 :: password) = (word ++ word).take keyLimit := by
      rw [keyOf, List.append_assoc, List.append_assoc]
      rfl
    have sized : ((word ++ word).take keyLimit).length = min keyLimit (2 * word.length) := by
      rw [List.length_take, List.length_append, Nat.two_mul]
    have nonempty : 0 < word.length := by simp [word]
    refine keyStream_eq_iff.mpr fun index within => ?_
    have positive : 0 < min keyLimit (2 * word.length) :=
      Nat.lt_min.mpr ⟨by decide, by omega⟩
    have place := Nat.lt_min.mp (Nat.mod_lt index positive)
    -- either both repetitions fit into the key, or the key ends before they do
    have round : index % min keyLimit (2 * word.length) % word.length = index % word.length := by
      by_cases fits : 2 * word.length ≤ keyLimit
      · rw [Nat.min_eq_right fits]
        exact Nat.mod_mod_of_dvd index (Nat.dvd_mul_left _ _)
      · rw [Nat.min_eq_left (Nat.le_of_not_le fits), Nat.mod_eq_of_lt within]
    rw [keyByte, keyByte, keyOf_of_short short, twice, sized, List.getD_eq_getElem?_getD,
      List.getElem?_take_of_lt place.1, ← List.getD_eq_getElem?_getD, getD_append_self place.2, round]

/-- Different keys with the same digest. -/
def Collide (cost : Nat) (salt first second : Bytes) : Prop :=
  keyStream first ≠ keyStream second ∧ digest cost salt first = digest cost salt second

theorem digest_eq_iff (cost : Nat) (salt first second : Bytes) :
    digest cost salt first = digest cost salt second ↔
      keyStream first = keyStream second ∨ Collide cost salt first second := by
  by_cases same : keyStream first = keyStream second
  · exact iff_of_true (digest_eq_of_keyStream_eq same cost salt) (.inl same)
  · exact ⟨fun collides => .inr ⟨same, collides⟩, fun either => (either.resolve_left same).2⟩

end Bcrypt

namespace Password

open Bcrypt (keyLimit keyStream Collide)

/-- A bcrypt hash of a password accepts another one if both have the same key, or if different keys
collide. -/
theorem verify_iff_key {cost : Nat} {salt : Bytes} (admitted : Bcrypt.admitsCost cost = true)
    (salted : salt.length = 16) (password : Bytes) :
    ∃ stored, Bcrypt.hash cost salt password = .ok stored ∧ ∀ secret, secret ≠ [] →
      (verify secret stored = .ok true ↔
        keyStream password = keyStream secret ∨ Collide cost salt password secret) := by
  obtain ⟨stored, hashed, compared⟩ := verify_of_bcrypt admitted salted password
  refine ⟨stored, hashed, fun secret nonempty => ?_⟩
  rw [compared secret nonempty, Except.ok.injEq, decide_eq_true_eq, Bcrypt.digest_eq_iff]

/-- **Longer passwords.** A bcrypt hash of a password accepts a longer one if and only if both have the
same key, or different keys collide. They have the same key if the password fills the key by itself,
or if what follows is a zero byte and the password again. If the password does not fill the key and
the first byte that follows is not zero, the longer one is accepted only if the keys collide. -/
theorem verify_longer {cost : Nat} {salt password : Bytes} (nonempty : password ≠ [])
    (admitted : Bcrypt.admitsCost cost = true) (salted : salt.length = 16) :
    ∃ stored, Bcrypt.hash cost salt password = .ok stored ∧
      (∀ more, verify (password ++ more) stored = .ok true ↔
        keyStream password = keyStream (password ++ more) ∨
          Collide cost salt password (password ++ more)) ∧
      (keyLimit ≤ password.length → ∀ more, verify (password ++ more) stored = .ok true) ∧
      verify (password ++ 0 :: password) stored = .ok true ∧
      (password.length < keyLimit → ∀ byte rest, byte ≠ 0 →
        (verify (password ++ byte :: rest) stored = .ok true ↔
          Collide cost salt password (password ++ byte :: rest))) := by
  obtain ⟨stored, hashed, accepts_iff⟩ := verify_iff_key admitted salted password
  have longer_iff := fun more => accepts_iff (password ++ more)
    (List.append_ne_nil_of_left_ne_nil nonempty more)
  refine ⟨stored, hashed, longer_iff, fun long more => ?_, ?_, fun short byte rest visible => ?_⟩
  · exact (longer_iff more).mpr (.inl (Bcrypt.keyStream_append_of_long long more).symm)
  · exact (longer_iff _).mpr (.inl (Bcrypt.keyStream_repeat password).symm)
  · exact (longer_iff _).trans
      (or_iff_right fun same => Bcrypt.keyStream_append_ne short visible rest same.symm)

/-- A password that is repeated behind a zero byte. -/
theorem verify_longer_spock :
    ∃ stored, Bcrypt.hash 4 (List.replicate 16 7) (Text.encode "spock") = .ok stored ∧
      verify (Text.encode "spock\x00spock") stored = .ok true := by
  obtain ⟨stored, hashed, -, -, again, -⟩ :=
    @verify_longer 4 (List.replicate 16 7) (Text.encode "spock") (by decide +kernel) (by decide)
      (by decide)
  have text : Text.encode "spock\x00spock" = Text.encode "spock" ++ 0 :: Text.encode "spock" := by
    decide +kernel
  exact ⟨stored, hashed, text ▸ again⟩

/-- **A byte behind the limit does not count.** -/
theorem verify_behind_limit :
    ∃ stored, Bcrypt.hash 4 (List.replicate 16 7) (List.replicate 72 97) = .ok stored ∧
      verify (List.replicate 72 97 ++ [98]) stored = .ok true := by
  obtain ⟨stored, hashed, accepts_iff⟩ :=
    @verify_iff_key 4 (List.replicate 16 7) (by decide) (by decide) (List.replicate 72 97)
  exact ⟨stored, hashed, (accepts_iff _ (by simp)).mpr
    (.inl (Bcrypt.keyStream_append_of_long (by decide) _).symm)⟩

end Password

end Gatehouse
