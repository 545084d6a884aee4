/-
**Literals are read back.**

A text is written as a string literal character by character: with an escape of one letter, with the
code of a control character, or as it is. Each of these forms stays inside of the literal when the
literal is cut out of a JSON text, and stands for its character when the literal is decoded.

* `Json.contentOf`: what stands between the quotes of the literal of a text;
* `Json.Form`, `Json.form_of_encodeChar`: the forms of a character;
* **`Json.decodeLiteral?_contentOf`**: a text is read back from its literal;
* **`Json.tokensFrom?_literal`**: a literal is cut out as one token.
-/

import Gatehouse.Json.Literal
import Gatehouse.Json.Token
import Gatehouse.Proofs.Text.Encoding

namespace Gatehouse.Json

open Text (Bytes)

/-! ### The forms of a character -/

/-- The bytes of a character inside of a literal. -/
def writtenChar (c : Char) : Bytes := (encodeChar c).flatMap String.utf8EncodeChar

/-- What stands between the quotes of the literal of a text. -/
def contentOf (text : String) : Bytes := text.toList.flatMap writtenChar

theorem encode_encodeLiteral (text : String) :
    Text.encode (encodeLiteral text) = 0x22 :: (contentOf text ++ [0x22]) := by
  rw [encodeLiteral, Text.encode_ofList, List.cons_append, List.flatMap_cons, List.flatMap_append,
    List.flatMap_assoc]
  rfl

/-- The forms in which a character stands in a literal. -/
inductive Form (c : Char) : Bytes → Prop
  /-- A backslash and a letter. -/
  | escape (letter byte : UInt8) (letter_is : simpleEscape? letter = some byte)
      (code : String.utf8EncodeChar c = [byte]) : Form c [0x5C, letter]
  /-- The code of a control character in four hexadecimal digits. -/
  | control (high low : UInt8) (digits : isHexByte high = true ∧ isHexByte low = true)
      (code : codeUnit 0x30 0x30 high low = c.toNat) (small : c.toNat < 0x20) :
      Form c [0x5C, 0x75, 0x30, 0x30, high, low]
  /-- The bytes of the character itself. -/
  | plain (unmarked : ∀ byte ∈ String.utf8EncodeChar c, byte ≠ 0x22 ∧ byte ≠ 0x5C ∧ ¬ byte < 0x20) :
      Form c (String.utf8EncodeChar c)

theorem form_of_control {c : Char} (small : c.toNat < 0x20) :
    Form c (['\\', 'u', '0', '0', hexDigit (c.toNat / 16), hexDigit (c.toNat % 16)].flatMap
      String.utf8EncodeChar) := by
  have bytes : ∀ n < 0x20, ∃ high low : UInt8,
      ['\\', 'u', '0', '0', hexDigit (n / 16), hexDigit (n % 16)].flatMap String.utf8EncodeChar =
        [0x5C, 0x75, 0x30, 0x30, high, low] ∧
      (isHexByte high = true ∧ isHexByte low = true) ∧ codeUnit 0x30 0x30 high low = n := by
    intro n bound
    refine ⟨UInt8.ofNat (hexDigit (n / 16)).toNat, UInt8.ofNat (hexDigit (n % 16)).toNat, ?_⟩
    revert n
    decide
  obtain ⟨high, low, written, digits, code⟩ := bytes c.toNat small
  rw [written]
  exact .control high low digits code small

theorem unmarked_of_plain {c : Char} (quote : c ≠ '"') (backslash : c ≠ '\\')
    (visible : ¬ c.toNat < 0x20) :
    ∀ byte ∈ String.utf8EncodeChar c, byte ≠ 0x22 ∧ byte ≠ 0x5C ∧ ¬ byte < 0x20 := by
  intro byte member
  have code : byte.toNat ≠ 0x22 ∧ byte.toNat ≠ 0x5C ∧ ¬ byte.toNat < 0x20 := by
    have differs (d : Char) (other : c ≠ d) : c.toNat ≠ d.toNat :=
      fun same => other (Char.toNat_inj.mp same)
    have notQuote : c.toNat ≠ 0x22 := differs '"' quote
    have notBackslash : c.toNat ≠ 0x5C := differs '\\' backslash
    rcases Text.mem_utf8EncodeChar member with ⟨_, own⟩ | ⟨_, large⟩ <;> omega
  exact ⟨fun same => code.1 (by rw [same]; rfl), fun same => code.2.1 (by rw [same]; rfl), code.2.2⟩

/-- Every character is written in one of the forms. -/
theorem form_of_encodeChar (c : Char) : Form c (writtenChar c) := by
  unfold writtenChar encodeChar
  split
  · exact .escape 0x22 0x22 rfl rfl
  · exact .escape 0x5C 0x5C rfl rfl
  · exact .escape 0x62 0x08 rfl rfl
  · exact .escape 0x66 0x0C rfl rfl
  · exact .escape 0x6E 0x0A rfl rfl
  · exact .escape 0x72 0x0D rfl rfl
  · exact .escape 0x74 0x09 rfl rfl
  · next quote backslash _ _ _ _ _ =>
    by_cases small : c.toNat < 0x20
    · rw [if_pos small]
      exact form_of_control small
    · rw [if_neg small, List.flatMap_singleton]
      exact .plain (unmarked_of_plain quote backslash small)

/-! ### Decoding -/

theorem unescape?_unit {a b c d : UInt8} (unit : codeUnit a b c d < 0xD800) (rest : Bytes) :
    unescape? (0x5C :: 0x75 :: a :: b :: c :: d :: rest) =
      (unescape? rest).map (encodePoint (codeUnit a b c d) ++ ·) := by
  have low : ¬ (0xD800 ≤ codeUnit a b c d ∧ codeUnit a b c d < 0xDC00) := by omega
  have high : ¬ (0xDC00 ≤ codeUnit a b c d ∧ codeUnit a b c d < 0xE000) := by omega
  have neither : ¬ (0xD800 ≤ codeUnit a b c d ∧ codeUnit a b c d < 0xE000) := by omega
  rw [unescape?.eq_def]
  split
  · next same =>
    cases same
    simp only
    rw [if_neg low, if_neg high]
  · next same =>
    cases same
    simp only
    rw [if_neg neither]
  · next other same =>
    cases same
    exact (other a b c d rest rfl rfl).elim
  · next other same =>
    cases same
    exact (other 0x75 _ rfl rfl).elim
  · next same => cases same

theorem unescape?_simple {letter byte : UInt8} (letter_is : simpleEscape? letter = some byte)
    (rest : Bytes) : unescape? (0x5C :: letter :: rest) = (unescape? rest).map (byte :: ·) := by
  have other : letter ≠ 0x75 := by
    rintro rfl
    cases letter_is
  rw [unescape?.eq_def]
  split
  · next same => cases same; exact (other rfl).elim
  · next same => cases same; exact (other rfl).elim
  · next same =>
    cases same
    rw [letter_is]
    cases unescape? rest <;> rfl
  · next short same => cases same; exact (short letter rest rfl rfl).elim
  · next same => cases same

theorem unescape?_plain {byte : UInt8} (plain : byte ≠ 0x5C) (rest : Bytes) :
    unescape? (byte :: rest) = (unescape? rest).map (byte :: ·) := by
  rw [unescape?.eq_def]
  split
  · next same => cases same; exact (plain rfl).elim
  · next same => cases same; exact (plain rfl).elim
  · next same => cases same; exact (plain rfl).elim
  · next same => cases same; rfl
  · next same => cases same

theorem unescape?_append {bytes : Bytes} (plain : ∀ byte ∈ bytes, byte ≠ 0x5C) (rest : Bytes) :
    unescape? (bytes ++ rest) = (unescape? rest).map (bytes ++ ·) := by
  induction bytes with
  | nil => exact Option.map_id'.symm
  | cons byte others ih =>
    obtain ⟨here, there⟩ := List.forall_mem_cons.mp plain
    rw [List.cons_append, unescape?_plain here, ih there, Option.map_map]
    rfl

/-- A character in one of its forms is decoded to its bytes. -/
theorem Form.unescape?_append {c : Char} {bytes : Bytes} (form : Form c bytes) (rest : Bytes) :
    unescape? (bytes ++ rest) = (unescape? rest).map (String.utf8EncodeChar c ++ ·) := by
  cases form with
  | escape letter byte letter_is code =>
    rw [code]
    exact unescape?_simple letter_is rest
  | control high low _ code small =>
    have point : encodePoint (codeUnit 0x30 0x30 high low) = String.utf8EncodeChar c := by
      rw [code, encodePoint, Char.ofNat_toNat, Text.encode_ofList, List.flatMap_singleton]
    have unit := @unescape?_unit 0x30 0x30 high low (by omega) rest
    rw [point] at unit
    exact unit
  | plain unmarked =>
    exact Json.unescape?_append (fun byte member => (unmarked byte member).2.1) rest

/-- **A text is read back** from the content of its literal. -/
theorem decodeLiteral?_contentOf (text : String) : decodeLiteral? (contentOf text) = some text := by
  have unescaped : ∀ chars : List Char,
      unescape? (chars.flatMap writtenChar) = some (chars.flatMap String.utf8EncodeChar) := by
    intro chars
    induction chars with
    | nil => rw [List.flatMap_nil, unescape?.eq_def]; rfl
    | cons c rest ih =>
      rw [List.flatMap_cons, (form_of_encodeChar c).unescape?_append, ih]
      rfl
  rw [decodeLiteral?, contentOf, unescaped, ← Text.encode_eq]
  exact Text.decode?_encode text

/-! ### Cutting out -/

theorem tokensFrom?_cons (mode : Mode) (byte : UInt8) (rest : Bytes) :
    tokensFrom? mode (byte :: rest) =
      (mode.advance byte).bind fun (tokens, next) => (tokensFrom? next rest).map (tokens ++ ·) := by
  simp only [Option.map_eq_bind]
  rw [tokensFrom?.eq_def]
  cases mode <;> rfl

/-- A byte that completes no token only moves the reader. -/
theorem tokensFrom?_of_advance {mode next : Mode} {byte : UInt8}
    (step : mode.advance byte = some ([], next)) (rest : Bytes) :
    tokensFrom? mode (byte :: rest) = tokensFrom? next rest := by
  rw [tokensFrom?_cons, step]
  exact Option.map_id'

theorem advance_letter {letter byte : UInt8} (letter_is : simpleEscape? letter = some byte)
    (read : Bytes) : (Mode.escaped read).advance letter = some ([], .string (letter :: read)) := by
  unfold simpleEscape? at letter_is
  split at letter_is
  all_goals first | rfl | cases letter_is

theorem advance_plain {byte : UInt8} (unmarked : byte ≠ 0x22 ∧ byte ≠ 0x5C ∧ ¬ byte < 0x20)
    (read : Bytes) : (Mode.string read).advance byte = some ([], .string (byte :: read)) := by
  rw [Mode.advance, if_neg unmarked.1, if_neg unmarked.2.1, if_neg unmarked.2.2]

theorem advance_digit {digit : UInt8} (hexadecimal : isHexByte digit = true) (missing : Nat)
    (read : Bytes) : (Mode.codePoint missing read).advance digit =
      some ([], if missing ≤ 1 then .string (digit :: read)
        else .codePoint (missing - 1) (digit :: read)) := by
  rw [Mode.advance, if_pos hexadecimal]

theorem tokensFrom?_plain {bytes : Bytes}
    (unmarked : ∀ byte ∈ bytes, byte ≠ 0x22 ∧ byte ≠ 0x5C ∧ ¬ byte < 0x20) (read rest : Bytes) :
    tokensFrom? (.string read) (bytes ++ rest) =
      tokensFrom? (.string (bytes.reverse ++ read)) rest := by
  induction bytes generalizing read with
  | nil => rfl
  | cons byte others ih =>
    obtain ⟨here, there⟩ := List.forall_mem_cons.mp unmarked
    rw [List.cons_append, tokensFrom?_of_advance (advance_plain here read), ih there,
      List.reverse_cons, List.append_assoc]
    rfl

/-- A character in one of its forms stays inside of the literal. -/
theorem Form.tokensFrom?_append {c : Char} {bytes : Bytes} (form : Form c bytes)
    (read rest : Bytes) : tokensFrom? (.string read) (bytes ++ rest) =
      tokensFrom? (.string (bytes.reverse ++ read)) rest := by
  have backslash (read : Bytes) :
      (Mode.string read).advance 0x5C = some ([], .escaped (0x5C :: read)) := rfl
  cases form with
  | escape letter byte letter_is code =>
    exact (tokensFrom?_of_advance (backslash read) _).trans
      (tokensFrom?_of_advance (advance_letter letter_is _) rest)
  | control high low digits code small =>
    have zero : isHexByte 0x30 = true := rfl
    exact (tokensFrom?_of_advance (backslash read) _).trans <|
      (tokensFrom?_of_advance
        (show (Mode.escaped _).advance 0x75 = some ([], .codePoint 4 _) from rfl) _).trans <|
      (tokensFrom?_of_advance (advance_digit zero 4 _) _).trans <|
      (tokensFrom?_of_advance (advance_digit zero 3 _) _).trans <|
      (tokensFrom?_of_advance (advance_digit digits.1 2 _) _).trans <|
      tokensFrom?_of_advance (advance_digit digits.2 1 _) rest
  | plain unmarked => exact tokensFrom?_plain unmarked read rest

/-- **A literal is cut out** as one token. -/
theorem tokensFrom?_literal (text : String) (rest : Bytes) :
    tokensFrom? .between (Text.encode (encodeLiteral text) ++ rest) =
      (tokensFrom? .between rest).map (.string (contentOf text) :: ·) := by
  have inside : ∀ (chars : List Char) (read : Bytes),
      tokensFrom? (.string read) (chars.flatMap writtenChar ++ 0x22 :: rest) =
        tokensFrom? (.string ((chars.flatMap writtenChar).reverse ++ read)) (0x22 :: rest) := by
    intro chars
    induction chars with
    | nil => exact fun read => rfl
    | cons c others ih =>
      intro read
      rw [List.flatMap_cons, List.append_assoc, (form_of_encodeChar c).tokensFrom?_append, ih,
        List.reverse_append, List.append_assoc]
  have opened : Mode.between.advance 0x22 = some ([], .string []) := rfl
  rw [encode_encodeLiteral, List.cons_append, tokensFrom?_of_advance opened, List.append_assoc,
    contentOf, List.singleton_append, inside, List.append_nil, tokensFrom?_cons]
  show (tokensFrom? .between rest).map ([Token.string _] ++ ·) = _
  rw [List.reverse_reverse]
  rfl

end Gatehouse.Json
