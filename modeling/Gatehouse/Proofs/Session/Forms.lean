/-
**Sessions in every form of a token.**

A client may write the token of a session as thirty-two digits, in groups with hyphens, or in groups
within braces, with letters of either case. All of these are forms of the one token that is written in
small letters with hyphens. So a session that was read from any header value is written in another way
perhaps, but read from there again.

* `Token.Spells`: the forms of a token;
* `Token.ofGroups?_eq_some_iff`, `Token.ofChars?_eq_some_iff`: a token is read from exactly its forms;
* `Session.ofHeader?_eq_some_iff`: the header values that a session is read from;
* **`Session.ofHeader?_of_any_form`**: reading and writing header values.
-/

import Gatehouse.Proofs.Session.Header

namespace Gatehouse

/-! ### Letters of either case -/

namespace Text

theorem toNat_toLower (c : Char) :
    c.toLower.toNat = if 65 ≤ c.toNat ∧ c.toNat ≤ 90 then c.toNat + 32 else c.toNat := by
  have capital : (c.val ≥ 'A'.val ∧ c.val ≤ 'Z'.val) ↔ 65 ≤ c.toNat ∧ c.toNat ≤ 90 := Iff.rfl
  unfold Char.toLower
  simp only [capital]
  split
  · next bounds =>
    show (c.val + ('a'.val - 'A'.val)).toNat = _
    have step : ('a'.val - 'A'.val).toNat = 32 := rfl
    rw [UInt32.toNat_add, step]
    show (c.toNat + 32) % 2 ^ 32 = _
    omega
  · rfl

/-- A character that is no letter is the small form of itself alone. -/
theorem toLower_eq_iff {c mark : Char} (plain : mark.toNat < 65 ∨ 122 < mark.toNat) :
    c.toLower = mark ↔ c = mark := by
  rw [← Char.toNat_inj, ← Char.toNat_inj, toNat_toLower]
  split <;> omega

/-- Changing characters other than the separator, and into others, changes the pieces one by one. -/
theorem splitAll_map {separator : Char} {change : Char → Char}
    (keeps : ∀ c, change c = separator ↔ c = separator) (text : List Char) :
    splitAll separator (text.map change) = (splitAll separator text).map (List.map change) := by
  induction text with
  | nil => rfl
  | cons c rest ih =>
    rw [List.map_cons, splitAll, splitAll, ih]
    by_cases same : c = separator
    · rw [if_pos same, if_pos ((keeps c).mpr same)]
      rfl
    · rw [if_neg same, if_neg fun changed => same ((keeps c).mp changed)]
      obtain ⟨piece, pieces, shape⟩ := List.exists_cons_of_ne_nil (splitAll_ne_nil separator rest)
      rw [shape]
      rfl

theorem splitAll_inj {separator : Char} {first second : List Char} :
    splitAll separator first = splitAll separator second ↔ first = second := by
  refine ⟨fun same => ?_, fun same => same ▸ rfl⟩
  rw [← join_splitAll separator first, same, join_splitAll]

end Text

namespace Token

/-- A digit of either case has the value of its small form. -/
theorem digit?_eq_some_iff {c : Char} {digit : Fin 16} :
    digit? c = some digit ↔ c.toLower = digitChar digit := by
  -- below 128 all characters are tried; from there on neither side has any
  by_cases small : c.toNat < 128
  · have all : ∀ n < 128, ∀ digit, digit? (Char.ofNat n) = some digit ↔
        (Char.ofNat n).toLower = digitChar digit := by decide +kernel
    have here := all c.toNat small digit
    rwa [Char.ofNat_toNat] at here
  · have absent : digit? c = none := by
      have beyond : ∀ {limit : Char}, limit.toNat < 128 → ¬ c ≤ limit := fun low below =>
        small (Nat.lt_of_le_of_lt below low)
      unfold digit?
      rw [if_neg fun bounds => beyond (by decide) bounds.2,
        if_neg fun bounds => beyond (by decide) bounds.2,
        if_neg fun bounds => beyond (by decide) bounds.2]
    have ascii : ∀ digit, (digitChar digit).toNat < 128 := by decide
    rw [absent]
    refine ⟨nofun, fun same => ?_⟩
    have ascii := ascii digit
    rw [← same, Text.toNat_toLower] at ascii
    split at ascii <;> omega

theorem mapM_digit?_eq_some_iff {text : List Char} {digits : List (Fin 16)} :
    text.mapM digit? = some digits ↔ text.map Char.toLower = digits.map digitChar := by
  induction text generalizing digits with
  | nil => cases digits <;> simp
  | cons c rest ih =>
    have step : (c :: rest).mapM digit? = (digit? c).bind fun digit =>
        (rest.mapM digit?).map (digit :: ·) := by
      rw [List.mapM_cons]
      cases digit? c <;> cases rest.mapM digit? <;> rfl
    rw [step, Option.bind_eq_some_iff]
    simp only [Option.map_eq_some_iff, ih, digit?_eq_some_iff, List.map_cons]
    cases digits with
    | nil => simp
    | cons digit others =>
      simp

/-! ### The forms of a token -/

/-- The forms of a token, with letters of either case: its digits, its digits in groups with hyphens
between them, and these in braces. -/
inductive Spells (token : Token) (form : List Char) : Prop
  | plain (same : form.map Char.toLower = token.digits.toList.map digitChar)
  | hyphenated (same : form.map Char.toLower = token.toChars)
  | braced (same : form.map Char.toLower = '{' :: (token.toChars ++ ['}']))

theorem cut_eq_iff {lengths : List Nat} {text : List Char} (whole : text.length = lengths.sum)
    {pieces : List (List Char)} :
    pieces = cut lengths text ↔ pieces.map List.length = lengths ∧ pieces.flatten = text := by
  constructor
  · rintro rfl
    exact ⟨map_length_cut whole, flatten_cut whole⟩
  · rintro ⟨rfl, rfl⟩
    clear whole
    induction pieces with
    | nil => rfl
    | cons piece rest ih => simp [cut, ← ih]

section Reading

variable {token : Token} {text : List Char}

theorem ofDigits?_eq_some_iff :
    ofDigits? text = some token ↔ text.map Char.toLower = token.digits.toList.map digitChar := by
  rw [← mapM_digit?_eq_some_iff]
  obtain ⟨⟨array, size⟩⟩ := token
  unfold ofDigits?
  cases text.mapM digit? with
  | none => simp
  | some digits =>
    by_cases fits : digits.length = 32
    · simp [fits, ← Array.toList_inj]
    · refine iff_of_false (by simp [fits]) fun same => fits ?_
      rw [Option.some.inj same]
      exact size

/-- Groups with hyphens are read exactly from the written form, with letters of either case. -/
theorem ofGroups?_eq_some_iff :
    ofGroups? text = some token ↔ text.map Char.toLower = token.toChars := by
  have hyphens : ∀ c : Char, c.toLower = '-' ↔ c = '-' := fun _ => Text.toLower_eq_iff (by decide)
  rw [← @Text.splitAll_inj '-', Text.splitAll_map hyphens, splitAll_toChars,
    cut_eq_iff token.length_digitChars, List.map_map, ← List.map_flatten]
  have lengths : List.length ∘ List.map Char.toLower = List.length := funext fun _ => List.length_map _
  rw [lengths]
  show (if (Text.splitAll '-' text).map List.length = groupLengths then
    ofDigits? (Text.splitAll '-' text).flatten else none) = some token ↔ _
  split
  · next fits => rw [ofDigits?_eq_some_iff, and_iff_right fits]
  · next misfit => exact ⟨nofun, fun both => (misfit both.1).elim⟩

theorem unbraced?_eq_some_iff {inner : List Char} :
    unbraced? text = some inner ↔ text = '{' :: (inner ++ ['}']) := by
  constructor
  · intro unbraced
    unfold unbraced? at unbraced
    split at unbraced
    · next rest =>
      split at unbraced
      · next closed =>
        obtain rfl := Option.some.inj unbraced
        rw [List.dropLast_append_getLast? _ closed]
      · cases unbraced
    · cases unbraced
  · rintro rfl
    simp [unbraced?]

/-- Braces stay when letters change. -/
theorem map_toLower_braces {inner : List Char} : ('{' :: (inner ++ ['}'])).map Char.toLower =
    '{' :: (inner.map Char.toLower ++ ['}']) := by
  simp

theorem braced_eq_some_iff : (unbraced? text).bind ofGroups? = some token ↔
    text.map Char.toLower = '{' :: (token.toChars ++ ['}']) := by
  rw [Option.bind_eq_some_iff]
  constructor
  · rintro ⟨inner, unbraced, read⟩
    rw [unbraced?_eq_some_iff.mp unbraced, map_toLower_braces, ofGroups?_eq_some_iff.mp read]
  · intro same
    obtain ⟨first, rest, rfl, opening, rest_eq⟩ := List.map_eq_cons_iff.mp same
    obtain ⟨inner, last, rfl, written, last_eq⟩ := List.map_eq_append_iff.mp rest_eq
    obtain ⟨closing, rfl, closed⟩ := List.map_eq_singleton_iff.mp last_eq
    rw [Text.toLower_eq_iff (by decide)] at opening closed
    subst opening closed
    exact ⟨inner, unbraced?_eq_some_iff.mpr rfl, ofGroups?_eq_some_iff.mpr written⟩

theorem length_toChars : token.toChars.length = 36 := by
  simp [toChars, groupLengths, cut, joinHyphens]

theorem length_of_ofDigits? (read : ofDigits? text = some token) : text.length = 32 := by
  simpa using congrArg List.length (ofDigits?_eq_some_iff.mp read)

theorem length_of_ofGroups? (read : ofGroups? text = some token) : text.length = 36 := by
  simpa [length_toChars] using congrArg List.length (ofGroups?_eq_some_iff.mp read)

/-- **Without a colon a text is read as a token exactly if it is one of its forms.** -/
theorem ofChars?_eq_some_iff (colonless : ':' ∉ text) :
    ofChars? text = some token ↔ token.Spells text := by
  have unnamed : (Text.dropPrefix? "urn:uuid:".toList text).bind ofGroups? = none := by
    rw [Option.bind_eq_none_iff]
    intro rest dropped
    exact (colonless (by rw [Text.dropPrefix?_eq_some_iff.mp dropped]; simp)).elim
  unfold ofChars?
  simp only [Option.orElse_eq_or, unnamed, Option.or_none, Option.or_eq_some_iff, Option.or_eq_none_iff,
    ofDigits?_eq_some_iff, ofGroups?_eq_some_iff, braced_eq_some_iff]
  constructor
  · rintro ((plain | ⟨_, hyphenated⟩) | ⟨_, braced⟩)
    · exact .plain plain
    · exact .hyphenated hyphenated
    · exact .braced braced
  · -- the forms differ in length, so that no earlier reading takes the text
    have noDigits : text.length ≠ 32 → ofDigits? text = none := fun other =>
      Option.eq_none_iff_forall_ne_some.mpr fun _ read => other (length_of_ofDigits? read)
    have noGroups : text.length ≠ 36 → ofGroups? text = none := fun other =>
      Option.eq_none_iff_forall_ne_some.mpr fun _ read => other (length_of_ofGroups? read)
    rintro (plain | hyphenated | braced)
    · exact .inl (.inl plain)
    · have whole : text.length = 36 := by
        simpa [length_toChars] using congrArg List.length hyphenated
      exact .inl (.inr ⟨noDigits (by omega), hyphenated⟩)
    · have whole : text.length = 38 := by
        simpa [length_toChars] using congrArg List.length braced
      exact .inr ⟨⟨noDigits (by omega), noGroups (by omega)⟩, braced⟩

/-- No form of a token has a colon. -/
theorem Spells.colonless (spells : token.Spells text) : ':' ∉ text := by
  intro colon
  have small : ':' ∈ text.map Char.toLower := List.mem_map.mpr ⟨':', colon, rfl⟩
  cases spells with
  | plain same =>
    obtain ⟨digit, _, here⟩ := List.mem_map.mp (same ▸ small)
    exact (digitChar_ne digit).2.1 here
  | hyphenated same => exact token.colon_not_mem_toChars (same ▸ small)
  | braced same =>
    rw [same] at small
    simp [token.colon_not_mem_toChars] at small

end Reading

end Token

/-! ### Header values -/

namespace Session

/-- **The header values of a session**: its name, a colon and any form of its token, with any blanks
around them. -/
theorem ofHeader?_eq_some_iff {value : String} {session : Session} :
    ofHeader? value = some session ↔ session.IsPresentable ∧
      ∃ form, session.token.Spells form ∧
        Text.trimBoth value.toList = session.username.toList ++ ':' :: form := by
  constructor
  · intro read
    refine ⟨isPresentable_of_ofHeader? read, ?_⟩
    unfold ofHeader? at read
    split at read
    · cases read
    · next username form cut =>
      obtain ⟨whole, colonless⟩ := Text.splitLast?_eq_some_iff.mp cut
      split at read
      · cases read
      · obtain ⟨token, reads, rfl⟩ := Option.map_eq_some_iff.mp read
        refine ⟨form, (Token.ofChars?_eq_some_iff colonless).mp reads, ?_⟩
        rw [whole, String.toList_ofList]
  · rintro ⟨⟨c, first, _⟩, form, spells, whole⟩
    have cut : Text.splitLast? ':' (Text.trimBoth value.toList) =
        some (session.username.toList, form) :=
      Text.splitLast?_eq_some_iff.mpr ⟨whole, spells.colonless⟩
    have named : session.username.toList.isEmpty = false := by
      obtain ⟨rest, shape⟩ := List.head?_eq_some_iff.mp first
      rw [shape]
      rfl
    unfold ofHeader?
    rw [cut]
    simp [named, (Token.ofChars?_eq_some_iff spells.colonless).mpr spells]

/-- **Sessions survive in headers.** A session is read back from its header value exactly if its user
name begins with a character that is not blank. It is read from exactly those values that consist of its
name, a colon and some form of its token, with blanks around them; and whatever value it was read from,
it is read again from its own. -/
theorem ofHeader?_of_any_form (session : Session) :
    (ofHeader? session.headerValue = some session ↔ session.IsPresentable) ∧
    ∀ value, (ofHeader? value = some session ↔ session.IsPresentable ∧
        ∃ form, session.token.Spells form ∧
          Text.trimBoth value.toList = session.username.toList ++ ':' :: form) ∧
      (ofHeader? value = some session →
        session.IsPresentable ∧ ofHeader? session.headerValue = some session) := by
  refine ⟨ofHeader?_headerValue_iff, fun value => ⟨ofHeader?_eq_some_iff, fun read => ?_⟩⟩
  have presentable := isPresentable_of_ofHeader? read
  exact ⟨presentable, ofHeader?_headerValue presentable⟩

/-- The session of a captain whose name has a colon. -/
def captainSession : Session where
  username := "jean:luc"
  token := ⟨.ofFn fun index => ⟨index.val % 16, Nat.mod_lt _ (by decide)⟩⟩

theorem ofHeader?_captainSession :
    ofHeader? " jean:luc:{01234567-89AB-CDEF-0123-456789abcdef}\t" = some captainSession ∧
    captainSession.IsPresentable ∧
    captainSession.headerValue = "jean:luc:01234567-89ab-cdef-0123-456789abcdef" ∧
    ofHeader? captainSession.headerValue = some captainSession := by
  have read : ofHeader? " jean:luc:{01234567-89AB-CDEF-0123-456789abcdef}\t" =
      some captainSession := by decide +kernel
  obtain ⟨presentable, again⟩ := ((ofHeader?_of_any_form captainSession).2 _).2 read
  exact ⟨read, presentable, by decide +kernel, again⟩

end Session

end Gatehouse
