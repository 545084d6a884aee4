/-
**Accepted tokens.**

Settings name one key, with its algorithm. The credentials of a request with a token are those of
its claims, if this key vouches for them and they hold; a token whose header does not name the
algorithm of the key is refused.

* `Configures`: the key of settings, `Rules.AreOf`: their rules; `Rules.ofSettings_eq_ok_iff`;
* `Rules.accept_eq_ok_iff`, `Rules.extract_eq_some_iff`: what is accepted;
* `Names`, `Rules.extract_of_not_names`: what is refused for its algorithm.
-/

import Gatehouse.Chain.Builtin
import Gatehouse.Proofs.Access.Login
import Gatehouse.Proofs.Bearer.Tokens

namespace Gatehouse.Bearer

open Text (Bytes)

/-! ### Keys of settings -/

/-- The key in a file is one for the algorithm that it is read for. -/
theorem Key.algorithm_of_ofArmor? {algorithm : Algorithm} {text : String} {key : Key}
    (read : Key.ofArmor? algorithm text = some key) : key.algorithm = algorithm := by
  obtain ⟨armor, _, held⟩ := Option.bind_eq_some_iff.mp read
  cases algorithm with
  | rs256 =>
    obtain ⟨elements, _, held⟩ := Option.bind_eq_some_iff.mp held
    split at held
    · cases held; rfl
    · split at held
      · obtain ⟨_, _, same⟩ := Option.bind_eq_some_iff.mp held
        cases same; rfl
      · cases held
  | es256 =>
    obtain ⟨elements, _, held⟩ := Option.bind_eq_some_iff.mp held
    split at held
    · obtain ⟨_, _, same⟩ := Option.bind_eq_some_iff.mp held
      cases same; rfl
    · cases held
  | _ => cases held

/-- The algorithm that settings ask for, in capitals. -/
def algorithmOf (settings : Settings) : String :=
  Text.upperAscii ((settings.text? "algorithm").getD defaultAlgorithm)

/-- Settings hold a key: the bytes of a shared secret, or the public key of a key file. -/
def Holds (settings : Settings) : Key → Prop
  | .secret bytes => ∃ text, settings.text? secretSetting = some text ∧ bytes = Text.encode text
  | key => ∃ text, settings.text? keySetting = some text ∧
      Key.ofArmor? key.algorithm text = some key

/-- The key of settings: they hold it, and ask for its algorithm. -/
structure Configures (settings : Settings) (key : Key) : Prop where
  named : Algorithm.ofName? (algorithmOf settings) = some key.algorithm
  held : Holds settings key

theorem keyText_eq_ok_iff {settings : Settings} {setting algorithm text : String} :
    keyText settings setting algorithm = .ok text ↔ settings.text? setting = some text := by
  unfold keyText
  cases settings.text? setting <;> simp

theorem publicKeyOf_eq_ok_iff {settings : Settings} {name : String} {algorithm : Algorithm}
    {key : Key} : publicKeyOf settings name algorithm = .ok key ↔
      ∃ text, settings.text? keySetting = some text ∧ Key.ofArmor? algorithm text = some key := by
  simp only [publicKeyOf, bind_eq_ok_iff, keyText_eq_ok_iff]
  refine exists_congr fun text => and_congr_right fun _ => ?_
  cases Key.ofArmor? algorithm text <;> simp [pure, Except.pure]

theorem keyOf_eq_ok_iff {settings : Settings} {key : Key} :
    keyOf settings (algorithmOf settings) = .ok key ↔ Configures settings key := by
  constructor
  · intro read
    unfold keyOf at read
    have of_file {algorithm : Algorithm}
        (asked : Algorithm.ofName? (algorithmOf settings) = some algorithm)
        (read : publicKeyOf settings (algorithmOf settings) algorithm = .ok key)
        (other : algorithm ≠ .hs256) : Configures settings key := by
      obtain ⟨text, given, armor⟩ := publicKeyOf_eq_ok_iff.mp read
      have same := Key.algorithm_of_ofArmor? armor
      rw [← same] at asked armor other
      refine ⟨asked, ?_⟩
      cases key with
      | secret bytes => exact (other rfl).elim
      | _ => exact ⟨text, given, armor⟩
    split at read
    · next asked =>
      cases held : keyText settings secretSetting (algorithmOf settings) with
      | error error => rw [held] at read; cases read
      | ok text =>
        rw [held] at read
        cases read
        exact ⟨asked, text, keyText_eq_ok_iff.mp held, rfl⟩
    · next asked => exact of_file asked read (fun same => by cases same)
    · next asked => exact of_file asked read (fun same => by cases same)
    · cases read
  · rintro ⟨asked, held⟩
    unfold keyOf
    rw [asked]
    cases key with
    | secret bytes =>
      obtain ⟨text, given, rfl⟩ := held
      simp only [Key.algorithm, keyText_eq_ok_iff.mpr given, Except.map]
    | rsa key => exact publicKeyOf_eq_ok_iff.mpr held
    | curve point => exact publicKeyOf_eq_ok_iff.mpr held

/-- Settings have one key. -/
theorem Configures.unique {settings : Settings} {key other : Key} (this : Configures settings key)
    (that : Configures settings other) : key = other := by
  have same := keyOf_eq_ok_iff.mpr this
  rw [keyOf_eq_ok_iff.mpr that] at same
  exact (Except.ok.inj same).symm

/-- The rules of settings. -/
structure Rules.AreOf (rules : Rules) (settings : Settings) : Prop where
  key : Configures settings rules.key
  issuer : rules.issuer = settings.text? "issuer"
  audience : rules.audience = settings.text? "audience"
  subjectName : rules.subjectName = (settings.text? "subject_key").getD Claims.subjectName
  rolesName : rules.rolesName = (settings.text? "roles_key").getD Claims.rolesName

theorem Rules.ofSettings_eq_ok_iff {settings : Settings} {rules : Rules} :
    ofSettings settings = .ok rules ↔ rules.AreOf settings := by
  unfold ofSettings
  simp only [bind_eq_ok_iff]
  constructor
  · rintro ⟨key, read, same⟩
    cases same
    exact ⟨keyOf_eq_ok_iff.mp read, rfl, rfl, rfl, rfl⟩
  · rintro ⟨key, issuer, audience, subject, roles⟩
    refine ⟨rules.key, keyOf_eq_ok_iff.mpr key, ?_⟩
    rw [← issuer, ← audience, ← subject, ← roles]
    rfl

/-- An extractor that is built from settings has their rules. -/
theorem buildBearer_eq_ok_iff {settings : Settings} {extractor : Extractor} :
    TypeTable.buildBearer settings = .ok extractor ↔
      ∃ rules : Rules, rules.AreOf settings ∧ extractor = rules.extractor := by
  unfold TypeTable.buildBearer
  simp only [← Rules.ofSettings_eq_ok_iff]
  cases Rules.ofSettings settings <;> simp [Except.map, eq_comm]

/-! ### Accepted tokens -/

namespace Rules

/-- **A token is accepted** exactly if the key vouches for claims that hold. -/
theorem accept_eq_ok_iff {rules : Rules} {now : Nat} {token : List Char} {claims : Claims} :
    rules.accept now token = .ok claims ↔
      ∃ parts, Text.splitAll '.' token = parts.toList ∧ rules.key.Vouches parts claims ∧
        now ≤ claims.expires + Claims.leeway ∧
        (∀ expected, rules.issuer = some expected → ∀ given, claims.issuer = some given →
          given = expected) ∧
        ∀ expected, rules.audience = some expected → Claims.Admits expected claims.audience := by
  simp only [accept, bind_eq_ok_iff, mapError_eq_ok_iff, verified_eq_ok_iff, Claims.check_eq_ok_iff]
  constructor
  · rintro ⟨_, ⟨parts, cut, vouches⟩, rfl, holds⟩
    exact ⟨parts, cut, vouches, holds⟩
  · rintro ⟨parts, cut, vouches, holds⟩
    exact ⟨claims, ⟨parts, cut, vouches⟩, rfl, holds⟩

theorem extract_eq_some_iff {rules : Rules} {now : Nat} {request : Request}
    {credentials : Credentials} :
    rules.extract now request = .ok (some credentials) ↔
      ∃ token claims, Carries request token ∧ rules.accept now token = .ok claims ∧
        rules.credentials claims = .ok credentials := by
  constructor
  · intro extracted
    obtain ⟨token, claims, found, accepted⟩ := extract_eq_some extracted
    exact ⟨token, claims, token?_eq_some_iff.mp found, accepted⟩
  · rintro ⟨token, claims, carries, accepted, established⟩
    have found := token?_eq_some_iff.mpr carries
    simp only [extract, found, accepted, established, bind, Except.bind, pure, Except.pure]

end Rules

/-! ### Tokens that name another algorithm -/

/-- A token names an algorithm: it has three parts, the first of which is the written form of a
header that names the algorithm. -/
def Names (token : List Char) (algorithm : Algorithm) : Prop :=
  ∃ (parts : Parts) (bytes : Bytes), Text.splitAll '.' token = parts.toList ∧
    Key.partBytes parts.header = .ok bytes ∧ Header.Names bytes algorithm

theorem Names.unique {token : List Char} {algorithm other : Algorithm}
    (this : Names token algorithm) (that : Names token other) : algorithm = other := by
  obtain ⟨⟨header, payload, signature⟩, bytes, cut, read, names⟩ := this
  obtain ⟨⟨header', payload', signature'⟩, bytes', cut', read', names'⟩ := that
  rw [cut] at cut'
  cases cut'
  rw [read] at read'
  cases read'
  exact names.unique names'

/-- A token that does not name the algorithm of the key is refused, whatever its signature is. -/
theorem Rules.extract_of_not_names {rules : Rules} {now : Nat} {request : Request}
    {token : List Char} (carries : Carries request token)
    (other : ¬ Names token rules.key.algorithm) :
    ∃ fault, rules.extract now request = .error (.invalidToken fault) := by
  have found := token?_eq_some_iff.mpr carries
  cases verified : rules.verified token with
  | error fault =>
    refine ⟨fault, ?_⟩
    simp only [extract, found, accept, verified, Except.mapError, bind, Except.bind]
  | ok claims =>
    obtain ⟨parts, cut, vouches⟩ := verified_eq_ok_iff.mp verified
    obtain ⟨bytes, read, algorithm⟩ := vouches.header
    exact (other ⟨parts, bytes, cut, read, Header.names_of_algorithm algorithm⟩).elim

end Gatehouse.Bearer
