/-
**Signed tokens.**

A token has three parts between full stops: a header that names an algorithm, a payload, and a
signature of these two. A key vouches for what a token claims if the header names the algorithm of
the key and the signature is one under it.

* `Rules.Carries`: the token of a request; `Rules.token?_eq_some_iff`;
* `Header.Names`: the one algorithm that a header names;
* `Key.Signs`: the signatures of a message; `Key.verifies_eq_true_iff`;
* `Key.partBytes_partOf`: bytes in their written form are read back;
* **`Rules.verified_eq_ok_iff`**: a token is verified exactly if the key vouches for its parts.
-/

import Gatehouse.Bearer.Extractor
import Gatehouse.Proofs.Bearer.Claims
import Gatehouse.Proofs.Text.Base64

namespace Gatehouse.Bearer

open Text (Bytes)

/-! ### The token of a request -/

namespace Rules

/-- A token stands after the scheme in the authentication header of a request, without the blanks
around it; in a request without this scheme it may stand in the query. -/
inductive Carries (request : Request) : List Char → Prop
  | header (value : String) (token : List Char)
      (given : request.header? "authorization" = some value)
      (after : value.toList = scheme ++ token) : Carries request (Text.trimBoth token)
  | query (value : String)
      (other : ∀ header, request.header? "authorization" = some header → ¬ scheme <+: header.toList)
      (given : request.parameter? parameterName = some value) (some_token : value ≠ "") :
      Carries request value.toList

theorem token?_eq_some_iff {request : Request} {token : List Char} :
    token? request = some token ↔ Carries request token := by
  unfold token?
  constructor
  · intro found
    cases inHeader : (request.header? "authorization").bind fun header =>
        (Text.dropPrefix? scheme header.toList).map Text.trimBoth with
    | some _ =>
      rw [inHeader] at found
      cases found
      obtain ⟨value, given, dropped⟩ := Option.bind_eq_some_iff.mp inHeader
      obtain ⟨rest, after, rfl⟩ := Option.map_eq_some_iff.mp dropped
      exact .header value rest given (Text.dropPrefix?_eq_some_iff.mp after)
    | none =>
      rw [inHeader] at found
      obtain ⟨value, given, rfl⟩ := Option.map_eq_some_iff.mp found
      obtain ⟨given, some_token⟩ := Option.filter_eq_some_iff.mp given
      refine .query value (fun header present ⟨rest, after⟩ => ?_) given
        (of_decide_eq_true some_token)
      rw [present, Option.bind_some, Text.dropPrefix?_eq_some_iff.mpr after.symm] at inHeader
      cases inHeader
  · rintro (⟨value, rest, given, after⟩ | ⟨value, other, given, some_token⟩)
    · rw [given, Option.bind_some, Text.dropPrefix?_eq_some_iff.mpr after]
      rfl
    · have inHeader : ((request.header? "authorization").bind fun header =>
          (Text.dropPrefix? scheme header.toList).map Text.trimBoth) = none := by
        refine Option.bind_eq_none_iff.mpr fun header present => ?_
        cases dropped : Text.dropPrefix? scheme header.toList with
        | none => rfl
        | some rest =>
          exact (other header present ⟨rest, (Text.dropPrefix?_eq_some_iff.mp dropped).symm⟩).elim
      rw [inHeader, given]
      simp [Option.filter, some_token]

end Rules

/-! ### Written parts -/

namespace Key

theorem symbol_urlSafe : ∀ value < 64, (Base64.symbol Base64.urlSafe value).toNat < 128 ∧
    Char.ofNat (Base64.symbol Base64.urlSafe value).toNat ≠ '.' ∧
    Text.isBlank (Char.ofNat (Base64.symbol Base64.urlSafe value).toNat) = false := by
  decide +kernel

/-- Neither full stops nor blanks stand in the written form of bytes. -/
theorem of_mem_partOf {bytes : Bytes} {c : Char} (member : c ∈ partOf bytes) :
    c ≠ '.' ∧ Text.isBlank c = false := by
  obtain ⟨byte, symbol, rfl⟩ := List.mem_map.mp member
  obtain ⟨value, written, rfl⟩ := List.mem_map.mp
    (show byte ∈ (Base64.toValues bytes).map (Base64.symbol Base64.urlSafe) from symbol)
  exact (symbol_urlSafe value (Base64.lt_of_mem_toValues value written)).2

/-- Bytes are read back from their written form. -/
theorem partBytes_partOf (bytes : Bytes) : partBytes (partOf bytes) = .ok bytes := by
  have small : ∀ byte ∈ Base64.encode Base64.urlSafe false bytes, byte.toNat < 128 := by
    intro byte symbol
    obtain ⟨value, written, rfl⟩ := List.mem_map.mp
      (show byte ∈ (Base64.toValues bytes).map (Base64.symbol Base64.urlSafe) from symbol)
    exact (symbol_urlSafe value (Base64.lt_of_mem_toValues value written)).1
  rw [partBytes, partOf, Text.encode_ascii small,
    (Base64.decode_eq_ok_iff Base64.isReadable_urlSafe Base64.length_urlSafe).mpr rfl]

/-- No full stop stands in a part that can be read. -/
theorem not_mem_of_partBytes {part : List Char} {bytes : Bytes}
    (read : partBytes part = .ok bytes) : '.' ∉ part := by
  unfold partBytes at read
  split at read
  · next decoded accepted =>
    intro stop
    have byte : (0x2E : UInt8) ∈ Text.encode (String.ofList part) := by
      rw [Text.encode_ofList]
      exact List.mem_flatMap.mpr ⟨'.', stop, List.mem_singleton.mpr rfl⟩
    have symbols := Base64.mem_of_decode Base64.isReadable_urlSafe Base64.length_urlSafe accepted
    exact absurd (symbols _ byte) (by decide)
  · cases read

/-! ### Signatures -/

/-- The signatures of a message. A shared secret has one, the written form of its code; a public key
that is not malformed has those that are verified under it. -/
def Signs (message : Bytes) (signature : List Char) : Key → Prop
  | .secret bytes => signature = partOf (Digest.hmacSha256 bytes message)
  | .rsa key => ∃ bytes key', partBytes signature = .ok bytes ∧ key = some key' ∧
      Rsa.verify key' message bytes = true
  | .curve point => ∃ bytes point', partBytes signature = .ok bytes ∧ point = some point' ∧
      Ecdsa.verify point' message bytes = true

theorem verifies_eq_true_iff {key : Key} {message : Bytes} {signature : List Char} :
    key.verifies message signature = .ok true ↔ key.Signs message signature := by
  cases key with
  | secret bytes => simp [verifies, Signs]
  | rsa key =>
    cases read : partBytes signature <;>
      simp [verifies, Signs, Except.map, Option.any_eq_true, read]
  | curve point =>
    cases read : partBytes signature <;>
      simp [verifies, Signs, Except.map, Option.any_eq_true, read]

end Key

/-! ### Headers -/

namespace Header

/-- The members of a header: those of an object, or values in their positions. -/
def Members (bytes : Bytes) (members : List (String × Json)) : Prop :=
  (∃ raw, Json.parse? bytes = some (.object raw) ∧ members? raw = some members) ∨
    ∃ items, Json.parse? bytes = some (.array items) ∧ items.length = positions.length ∧
      members = positions.zip items

/-- A header names an algorithm if exactly one of its members is for the algorithm, and names it. -/
def Names (bytes : Bytes) (algorithm : Algorithm) : Prop :=
  ∃ members value, Members bytes members ∧
    (members.filter fun member => member.1 = algorithmName) = [(algorithmName, value)] ∧
    algorithmOf? value = some algorithm

theorem Members.unique {bytes : Bytes} {members others : List (String × Json)}
    (these : Members bytes members) (those : Members bytes others) : members = others := by
  rcases these with ⟨raw, parsed, decoded⟩ | ⟨items, parsed, _, rfl⟩ <;>
    rcases those with ⟨raw', parsed', decoded'⟩ | ⟨items', parsed', _, rfl⟩ <;>
    rw [parsed] at parsed' <;> cases parsed'
  · rw [decoded] at decoded'
    cases decoded'
    rfl
  · rfl

/-- A header names one algorithm only. -/
theorem Names.unique {bytes : Bytes} {algorithm other : Algorithm} (this : Names bytes algorithm)
    (that : Names bytes other) : algorithm = other := by
  obtain ⟨members, value, these, only, names⟩ := this
  obtain ⟨members', value', those, only', names'⟩ := that
  cases these.unique those
  rw [only] at only'
  cases only'
  rw [names] at names'
  exact Option.some.inj names'

theorem ofMembers_eq_ok {members : List (String × Json)} {algorithm : Algorithm}
    (read : ofMembers members = .ok algorithm) :
    ∃ value, (members.filter fun member => member.1 = algorithmName) = [(algorithmName, value)] ∧
      algorithmOf? value = some algorithm := by
  unfold ofMembers at read
  split at read
  · cases read
  · next once =>
    have single := List.find?_eq_none.mp once algorithmName List.mem_cons_self
    split at read
    · cases read
    · split at read
      · cases read
      · next value there =>
        split at read
        · next named =>
          cases read
          refine ⟨value, ?_, named⟩
          obtain ⟨⟨name, _⟩, first, rfl⟩ := Option.map_eq_some_iff.mp there
          have same : name = algorithmName := by simpa using List.find?_some first
          rw [← List.head?_filter, same] at first
          obtain ⟨others, all⟩ := List.head?_eq_some_iff.mp first
          rw [all] at single ⊢
          cases others with
          | nil => rfl
          | cons _ _ => exact (single (by simp)).elim
        · cases read

/-- The algorithm that is read from a header is the one that it names. -/
theorem names_of_algorithm {bytes : Bytes} {algorithm : Algorithm}
    (read : Header.algorithm bytes = .ok algorithm) : Names bytes algorithm := by
  unfold Header.algorithm at read
  split at read
  · cases read
  · next raw parsed =>
    split at read
    · next members decoded =>
      obtain ⟨value, only, names⟩ := ofMembers_eq_ok read
      exact ⟨members, value, .inl ⟨raw, parsed, decoded⟩, only, names⟩
    · cases read
  · next items parsed =>
    split at read
    · next whole =>
      obtain ⟨value, only, names⟩ := ofMembers_eq_ok read
      exact ⟨_, value, .inr ⟨items, parsed, whole, rfl⟩, only, names⟩
    · cases read
  · cases read

end Header

/-! ### Verified tokens -/

namespace Parts

/-- The parts in their order. -/
def toList (parts : Parts) : List (List Char) := [parts.header, parts.payload, parts.signature]

/-- A token is cut into three parts only where it has two full stops. -/
theorem ofToken?_of_splitAll {token : List Char} {parts : Parts}
    (cut : Text.splitAll '.' token = parts.toList) : ofToken? token = some parts := by
  have whole : token = (parts.header ++ '.' :: parts.payload) ++ '.' :: parts.signature := by
    rw [← Text.join_splitAll '.' token, cut]
    simp [toList, List.intercalate]
  have plain : ∀ part ∈ parts.toList, '.' ∉ part :=
    fun part member => Text.not_mem_of_mem_splitAll (cut ▸ member)
  have signed := Text.splitLast?_eq_some_iff.mpr ⟨whole, plain _ (by simp [toList])⟩
  have message : Text.splitLast? '.' (parts.header ++ '.' :: parts.payload) =
      some (parts.header, parts.payload) :=
    Text.splitLast?_eq_some_iff.mpr ⟨rfl, plain _ (by simp [toList])⟩
  simp [ofToken?, signed, message]

theorem splitAll_of_ofToken? {token : List Char} {parts : Parts}
    (cut : ofToken? token = some parts) (plain : '.' ∉ parts.header) :
    Text.splitAll '.' token = parts.toList := by
  obtain ⟨⟨signed, signature⟩, last, cut⟩ := Option.bind_eq_some_iff.mp cut
  obtain ⟨⟨header, payload⟩, first, same⟩ := Option.bind_eq_some_iff.mp cut
  cases same
  obtain ⟨rfl, no_signature⟩ := Text.splitLast?_eq_some_iff.mp last
  obtain ⟨rfl, no_payload⟩ := Text.splitLast?_eq_some_iff.mp first
  rw [Text.splitAll_append, Text.splitAll_append, Text.splitAll_eq_singleton plain,
    Text.splitAll_eq_singleton no_payload, Text.splitAll_eq_singleton no_signature]
  rfl

end Parts

/-- A key vouches for claims that parts of a token make. -/
structure Key.Vouches (key : Key) (parts : Parts) (claims : Claims) : Prop where
  header : ∃ bytes, Key.partBytes parts.header = .ok bytes ∧
    Header.algorithm bytes = .ok key.algorithm
  signature : key.Signs parts.message parts.signature
  payload : ∃ bytes, Key.partBytes parts.payload = .ok bytes ∧ Claims.ofBytes bytes = .ok claims

namespace Rules

theorem readPart_eq_ok_iff {α : Type} {read : Bytes → Except PartFault α} {part : List Char}
    {value : α} : readPart read part = .ok value ↔
      ∃ bytes, Key.partBytes part = .ok bytes ∧ read bytes = .ok value := by
  simp only [readPart, bind_eq_ok_iff, mapError_eq_ok_iff]

theorem verify_eq_ok_iff {rules : Rules} {parts : Parts} :
    rules.verify parts = .ok () ↔
      (∃ bytes, Key.partBytes parts.header = .ok bytes ∧
        Header.algorithm bytes = .ok rules.key.algorithm) ∧
      rules.key.Signs parts.message parts.signature := by
  rw [← readPart_eq_ok_iff, ← Key.verifies_eq_true_iff]
  unfold verify
  cases readPart Header.algorithm parts.header with
  | error fault => simp [bind, Except.bind]
  | ok algorithm =>
    by_cases named : algorithm = rules.key.algorithm
    · cases rules.key.verifies parts.message parts.signature with
      | error fault => simp [bind, Except.bind, named]
      | ok valid => cases valid <;> simp [bind, Except.bind, named, pure, Except.pure]
    · simp [bind, Except.bind, named]

/-- **A token is verified** exactly if it has three parts and the key vouches for them. -/
theorem verified_eq_ok_iff {rules : Rules} {token : List Char} {claims : Claims} :
    rules.verified token = .ok claims ↔
      ∃ parts, Text.splitAll '.' token = parts.toList ∧ rules.key.Vouches parts claims := by
  unfold verified
  constructor
  · intro verified
    split at verified
    · cases verified
    · next parts cut =>
      obtain ⟨_, valid, read⟩ := bind_eq_ok_iff.mp verified
      obtain ⟨⟨bytes, header, algorithm⟩, signature⟩ := verify_eq_ok_iff.mp valid
      exact ⟨parts, Parts.splitAll_of_ofToken? cut (Key.not_mem_of_partBytes header),
        ⟨bytes, header, algorithm⟩, signature, readPart_eq_ok_iff.mp read⟩
  · rintro ⟨parts, cut, vouches⟩
    rw [Parts.ofToken?_of_splitAll cut]
    exact bind_eq_ok_iff.mpr ⟨(), verify_eq_ok_iff.mpr ⟨vouches.header, vouches.signature⟩,
      readPart_eq_ok_iff.mpr vouches.payload⟩

end Rules

end Gatehouse.Bearer
