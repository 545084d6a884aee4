/-
**The grammar of basic headers.**

A header carries a user name and a secret if it is written in one way only: the scheme in any case, one
space, and the padded base64 form of the name, a colon and the secret, with blanks allowed in front and
around the written form. Nothing else is taken for credentials. A header with another first word, or
without a space behind the first word, is none of this scheme; every other one is malformed.

* `Basic.written`: the padded base64 form of bytes, as characters; `Basic.decode_eq_ok_iff`;
* `Basic.HasWord`, `Basic.Passes`, `Basic.Carries`: the first word of a header, headers of other
  schemes, and headers with credentials;
* `Basic.trimBoth_written`, `Basic.extract_headerOf`: a header that is written is read back;
* **`Basic.extract_iff_grammar`**: what is taken from any header, and when it is refused.
-/

import Gatehouse.Proofs.Access.Login
import Gatehouse.Proofs.Text.Base64
import Gatehouse.Proofs.Text.Encoding

namespace Gatehouse

namespace Text

theorem encode_inj {first second : String} : encode first = encode second ↔ first = second := by
  constructor
  · intro same
    have decoded := decode?_encode first
    rw [same, decode?_encode] at decoded
    exact (Option.some.inj decoded).symm
  · rintro rfl
    rfl

/-- The byte of a colon stands in the bytes of a text exactly where there is a colon. -/
theorem colon_mem_encode_iff {text : String} : 0x3A ∈ encode text ↔ ':' ∈ text.toList := by
  rw [encode_eq, List.mem_flatMap]
  constructor
  · rintro ⟨c, member, byte⟩
    rcases mem_utf8EncodeChar byte with ⟨small, same⟩ | ⟨_, large⟩
    · have code : c.toNat = 58 := same.symm
      have colon : c = ':' := Char.ext (UInt32.toNat_inj.mp code)
      rwa [← colon]
    · exact absurd large (by decide)
  · intro member
    exact ⟨':', member, List.mem_singleton.mpr rfl⟩

theorem splitFirst?_eq_none_iff {separator : Char} {text : List Char} :
    splitFirst? separator text = none ↔ separator ∉ text := by
  constructor
  · intro missing member
    obtain ⟨before, after, whole, absent⟩ := List.eq_append_cons_of_mem member
    rw [splitFirst?_eq_some_iff.mpr ⟨whole, absent⟩] at missing
    cases missing
  · intro absent
    rw [Option.eq_none_iff_forall_ne_some]
    rintro ⟨before, after⟩ found
    exact absent (by rw [(splitFirst?_eq_some_iff.mp found).1]; simp)

end Text

namespace Basic

open Text (Bytes)

/-! ### Written forms -/

/-- The padded base64 form of bytes, as characters. -/
def written (bytes : Bytes) : List Char :=
  (Base64.encode Base64.standard true bytes).map fun byte => Char.ofNat byte.toNat

/-- The bytes of a written form are those of ASCII characters that are not blank. -/
theorem of_mem_encode {bytes : Bytes} {byte : UInt8}
    (member : byte ∈ Base64.encode Base64.standard true bytes) :
    byte.toNat < 128 ∧ Text.isBlank (Char.ofNat byte.toNat) = false := by
  have symbols : ∀ value < 64, (Base64.symbol Base64.standard value).toNat < 128 ∧
      Text.isBlank (Char.ofNat (Base64.symbol Base64.standard value).toNat) = false := by
    decide +kernel
  rw [Base64.encode_eq] at member
  rcases List.mem_append.mp member with symbol | padding
  · obtain ⟨value, inside, rfl⟩ := List.mem_map.mp symbol
    exact symbols value (Base64.lt_of_mem_toValues value inside)
  · rw [List.eq_of_mem_replicate padding]
    decide

theorem encode_written (bytes : Bytes) :
    Text.encode (String.ofList (written bytes)) = Base64.encode Base64.standard true bytes :=
  Text.encode_ascii fun _ member => (of_mem_encode member).1

/-- The characters that can be read are the written forms. -/
theorem decode_eq_ok_iff {text : List Char} {bytes : Bytes} :
    Base64.decode Base64.standard true (Text.encode (String.ofList text)) = .ok bytes ↔
      text = written bytes := by
  rw [Base64.decode_eq_ok_iff Base64.isReadable_standard Base64.length_standard, ← encode_written,
    Text.encode_inj, String.ofList_inj]

/-- No blanks stand around a written form. -/
theorem trimBoth_written (bytes : Bytes) : Text.trimBoth (written bytes) = written bytes := by
  have plain : ∀ c ∈ written bytes, Text.isBlank c = false := by
    intro c member
    obtain ⟨byte, inside, rfl⟩ := List.mem_map.mp member
    exact (of_mem_encode inside).2
  exact Text.trim_of_trimmed ⟨fun c first => plain c (List.mem_of_mem_head? first),
    fun c last => plain c (List.mem_of_getLast? last)⟩

/-! ### Headers -/

/-- A header is, after leading blanks, a first word, one space, and a rest. -/
def HasWord (header : String) (word rest : List Char) : Prop :=
  Text.trimLeft header.toList = word ++ ' ' :: rest ∧ ' ' ∉ word

/-- A word is the name of the scheme, whatever the case of its letters. -/
def IsScheme (word : List Char) : Prop := word.map Char.toLower = typeName.toList

/-- A header is none of this scheme: no space follows its first word, or this word is another one. -/
def Passes (header : String) : Prop :=
  ' ' ∉ Text.trimLeft header.toList ∨ ∃ word rest, HasWord header word rest ∧ ¬ IsScheme word

/-- A header carries a user name and a secret. -/
def Carries (header username : String) (secret : Bytes) : Prop :=
  ∃ word rest, HasWord header word rest ∧ IsScheme word ∧
    Text.trimBoth rest = written (Text.encode username ++ 0x3A :: secret) ∧
    username ≠ "" ∧ ':' ∉ username.toList

theorem afterScheme?_eq_some_iff {header : String} {rest : List Char} :
    afterScheme? typeName header.toList = some rest ↔
      ∃ word, HasWord header word rest ∧ IsScheme word := by
  have scheme : (Text.lowerAscii typeName).toList = typeName.toList := by decide
  unfold afterScheme? HasWord IsScheme
  rw [scheme]
  constructor
  · intro found
    split at found
    · next word after split? =>
      split at found
      · next same =>
        cases found
        exact ⟨word, Text.splitFirst?_eq_some_iff.mp split?, same⟩
      · cases found
    · cases found
  · rintro ⟨word, split, same⟩
    rw [Text.splitFirst?_eq_some_iff.mpr split]
    exact if_pos same

theorem afterScheme?_eq_none_iff {header : String} :
    afterScheme? typeName header.toList = none ↔ Passes header := by
  have scheme : (Text.lowerAscii typeName).toList = typeName.toList := by decide
  unfold afterScheme? Passes HasWord IsScheme
  rw [scheme]
  cases split? : Text.splitFirst? ' ' (Text.trimLeft header.toList) with
  | none => exact iff_of_true rfl (.inl (Text.splitFirst?_eq_none_iff.mp split?))
  | some parts =>
    obtain ⟨word, rest⟩ := parts
    have split := Text.splitFirst?_eq_some_iff.mp split?
    have present : ' ' ∈ Text.trimLeft header.toList := by rw [split.1]; simp
    simp only [ite_eq_right_iff, reduceCtorEq, imp_false]
    constructor
    · exact fun other => .inr ⟨word, rest, split, other⟩
    · rintro (absent | ⟨word', rest', split', other⟩)
      · exact (absent present).elim
      · have same := split?.symm.trans (Text.splitFirst?_eq_some_iff.mpr split')
        cases same
        exact other

/-- A request presents credentials with a name exactly if its header carries them. -/
theorem presents_iff {request : Request} {username : String} {secret : Bytes} :
    Presents request username secret ∧ username ≠ "" ↔
      ∃ header, request.header? headerName = some header ∧ Carries header username secret := by
  unfold Presents Carries
  simp only [afterScheme?_eq_some_iff, decode_eq_ok_iff, Text.colon_mem_encode_iff]
  constructor
  · rintro ⟨⟨header, rest, present, ⟨word, split, scheme⟩, form, absent⟩, named⟩
    exact ⟨header, present, word, rest, split, scheme, form, named, absent⟩
  · rintro ⟨header, present, word, rest, split, scheme, form, named, absent⟩
    exact ⟨⟨header, rest, present, ⟨word, split, scheme⟩, form, absent⟩, named⟩

/-- Nothing is taken from a request without a header of this scheme. -/
theorem extract_eq_none_iff {request : Request} : extract request = .ok none ↔
    ((request.header? headerName).bind fun header => afterScheme? typeName header.toList) = none := by
  unfold extract
  split
  · next absent => exact iff_of_true rfl absent
  · next encoded found =>
    rw [found]
    split <;> simp

/-- Nothing but malformed headers is refused. -/
theorem extract_cases (request : Request) : (∃ credentials, extract request = .ok credentials) ∨
    ∃ fault, extract request = .error (.invalidHeader fault) := by
  unfold extract
  split
  · exact .inl ⟨_, rfl⟩
  · split
    · exact .inr ⟨_, rfl⟩
    · exact .inl ⟨_, rfl⟩

/-- What stands before the first separator does not depend on what follows it. -/
theorem exists_split_at_first (separator : Char) (before after : List Char) :
    ∃ rest, before ++ separator :: after = before.takeWhile (· ≠ separator) ++ separator :: rest := by
  induction before with
  | nil => exact ⟨after, rfl⟩
  | cons c before ih =>
    by_cases same : c = separator
    · subst same
      exact ⟨before ++ c :: after, by simp⟩
    · obtain ⟨rest, split⟩ := ih
      exact ⟨rest, by simp [same, split]⟩

theorem ofBytes_encode {user : List Char} (absent : ':' ∉ user) (secret : String) :
    ofBytes (Text.encode (String.ofList user ++ ":" ++ secret)) =
      if user = [] then .error .emptyUser
      else .ok (.withSecret (String.ofList user) (Text.encode secret)) := by
  have bytes : Text.encode (String.ofList user ++ ":" ++ secret) =
      Text.encode (String.ofList user) ++ 0x3A :: Text.encode secret := by
    rw [Text.encode_append, Text.encode_append, List.append_assoc,
      show Text.encode ":" = [0x3A] by decide]
    rfl
  have absent' : 0x3A ∉ Text.encode (String.ofList user) := by
    rwa [Text.colon_mem_encode_iff, String.toList_ofList]
  unfold ofBytes
  rw [splitColon?_eq_some_iff.mpr ⟨bytes, absent'⟩]
  simp only [Text.decode?_encode]
  exact if_congr (by rw [← String.ofList_nil, String.ofList_inj]) rfl rfl

/-- **A header that is written for a name and a secret** is read back with the name up to its first
colon, which must not stand first. -/
theorem extract_headerOf {request : Request} {username password : String}
    (present : request.header? headerName = some (headerOf username password)) :
    let user := username.toList.takeWhile (· ≠ ':')
    ∃ secret : String, username ++ ":" ++ password = String.ofList user ++ ":" ++ secret ∧
      extract request = if user = [] then .error (.invalidHeader .emptyUser)
        else .ok (some (.withSecret (String.ofList user) (Text.encode secret))) := by
  intro user
  obtain ⟨rest, split⟩ := exists_split_at_first ':' username.toList password.toList
  have whole : username ++ ":" ++ password = String.ofList user ++ ":" ++ String.ofList rest := by
    apply String.toList_inj.mp
    simpa [user] using split
  have absent : ':' ∉ user := fun member => by
    simpa using List.all_eq_true.mp List.all_takeWhile _ member
  have scheme : afterScheme? typeName (headerOf username password).toList =
      some (written (Text.encode (username ++ ":" ++ password))) := by
    have named : IsScheme "Basic".toList := by unfold IsScheme; decide
    refine afterScheme?_eq_some_iff.mpr ⟨"Basic".toList, ⟨?_, by decide⟩, named⟩
    have shape : (headerOf username password).toList = "Basic".toList ++ ' ' ::
        written (Text.encode (username ++ ":" ++ password)) := by
      unfold headerOf written
      simp only [String.toList_append, String.toList_ofList]
      rfl
    rw [shape]
    exact Text.trimLeft_eq_self fun c first => by cases first; decide
  have read : ofEncoded (written (Text.encode (username ++ ":" ++ password))) =
      if user = [] then .error .emptyUser
      else .ok (.withSecret (String.ofList user) (Text.encode (String.ofList rest))) := by
    unfold ofEncoded
    simp only [trimBoth_written, decode_eq_ok_iff.mpr rfl, whole, ofBytes_encode absent]
  refine ⟨String.ofList rest, whole, ?_⟩
  unfold extract
  rw [present, Option.bind_some, scheme]
  simp only [read]
  by_cases unnamed : user = []
  · rw [if_pos unnamed, if_pos unnamed]
  · rw [if_neg unnamed, if_neg unnamed]

/-- **Credentials are taken from a header exactly if it follows the grammar.** For every request:

* it gives credentials exactly if its header carries the name and the secret that they hold;
* it gives none exactly if it has no header, or one of another scheme;
* it is refused as malformed in all other cases;
* if the header is written for a name and a secret, the name up to its first colon is the user and what
  follows that colon the secret; without a character before the colon it is malformed. -/
theorem extract_iff_grammar (request : Request) :
    (∀ credentials, extract request = .ok (some credentials) ↔ ∃ header username secret,
      request.header? headerName = some header ∧ Carries header username secret ∧
      credentials = .withSecret username secret) ∧
    (extract request = .ok none ↔ ∀ header ∈ request.header? headerName, Passes header) ∧
    ((∃ fault, extract request = .error (.invalidHeader fault)) ↔
      ∃ header ∈ request.header? headerName, ¬ Passes header ∧
        ∀ username secret, ¬ Carries header username secret) ∧
    ∀ username password, request.header? headerName = some (headerOf username password) →
      let user := username.toList.takeWhile (· ≠ ':')
      ∃ secret : String, username ++ ":" ++ password = String.ofList user ++ ":" ++ secret ∧
        extract request = if user = [] then .error (.invalidHeader .emptyUser)
          else .ok (some (.withSecret (String.ofList user) (Text.encode secret))) := by
  have given : ∀ credentials, extract request = .ok (some credentials) ↔ ∃ header username secret,
      request.header? headerName = some header ∧ Carries header username secret ∧
      credentials = .withSecret username secret := by
    intro credentials
    rw [extract_eq_some_iff]
    constructor
    · rintro ⟨username, secret, presents, named, same⟩
      obtain ⟨header, present, carries⟩ := presents_iff.mp ⟨presents, named⟩
      exact ⟨header, username, secret, present, carries, same⟩
    · rintro ⟨header, username, secret, present, carries, same⟩
      obtain ⟨presents, named⟩ := presents_iff.mpr ⟨header, present, carries⟩
      exact ⟨username, secret, presents, named, same⟩
  have passed : extract request = .ok none ↔
      ∀ header ∈ request.header? headerName, Passes header := by
    rw [extract_eq_none_iff, Option.bind_eq_none_iff]
    simp only [afterScheme?_eq_none_iff]
    rfl
  refine ⟨given, passed, ?_, fun username password => extract_headerOf⟩
  constructor
  · rintro ⟨fault, refused⟩
    have unpassed : ¬ ∀ header ∈ request.header? headerName, Passes header := by
      rw [← passed, refused]
      nofun
    obtain ⟨header, present, fails⟩ := by simpa only [not_forall] using unpassed
    refine ⟨header, present, fails, fun username secret carries => ?_⟩
    have taken := (given _).mpr ⟨header, username, secret, present, carries, rfl⟩
    rw [refused] at taken
    cases taken
  · rintro ⟨header, present, fails, nothing⟩
    rcases extract_cases request with ⟨credentials, taken⟩ | refused
    · cases credentials with
      | none => exact (fails (passed.mp taken header present)).elim
      | some credentials =>
        obtain ⟨other, username, secret, present', carries, _⟩ := (given credentials).mp taken
        cases present'.symm.trans present
        exact (nothing username secret carries).elim
    · exact refused

/-- A request of a user whose name has a colon. -/
def requestOfJeanLuc : Request :=
  ⟨Table.empty.put headerName (headerOf "jean:luc" "picard"), none, "", "", none⟩

/-- Behind the colon the name counts as a part of the secret. -/
theorem extract_requestOfJeanLuc :
    requestOfJeanLuc.header? headerName = some (headerOf "jean:luc" "picard") ∧
    extract requestOfJeanLuc = .ok (some (.withSecret "jean" (Text.encode "luc:picard"))) := by
  have present : requestOfJeanLuc.header? headerName = some (headerOf "jean:luc" "picard") := by
    decide +kernel
  obtain ⟨secret, split, taken⟩ := (extract_iff_grammar requestOfJeanLuc).2.2.2 _ _ present
  have user : "jean:luc".toList.takeWhile (· ≠ ':') = "jean".toList := by decide
  rw [user] at split taken
  have whole : "jean:".toList ++ "luc:picard".toList = "jean:".toList ++ secret.toList := by
    have characters := congrArg String.toList split
    simp only [String.toList_append, String.ofList_toList] at characters
    exact characters
  obtain rfl : "luc:picard" = secret := String.toList_inj.mp (List.append_cancel_left whole)
  exact ⟨present, taken⟩

end Basic

end Gatehouse
