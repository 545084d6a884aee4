/-
**Written hashes.**

A hash is written with its salt and everything else that it takes to compute it again, in fields after
dollar signs. What is written is read back: the salt and the digest from the symbols of an alphabet,
the cost from its two digits, and the version and the parameters of a hash string from theirs.

* `Base64.decode_chars`: bytes are read back from symbols as characters;
* `Text.splitAll_fields`: fields are found again at their dollar signs;
* `Phc.IsComplete`: a hash string with all its fields within their limits; **`Phc.parse?_toChars`**;
* **`Bcrypt.split?_written`**: the parts of a written bcrypt hash.
-/

import Gatehouse.Password.Stored
import Gatehouse.Proofs.Network.Numbers
import Gatehouse.Proofs.Text.Base64
import Gatehouse.Proofs.Text.Encoding

namespace Gatehouse

open Text (Bytes)

/-! ### Bytes in symbols -/

namespace Base64

variable {alphabet : Alphabet} {bytes : Bytes}

/-- Bytes in the symbols of an alphabet, as characters. -/
def chars (alphabet : Alphabet) (bytes : Bytes) : List Char :=
  (encode alphabet false bytes).map fun byte => Char.ofNat byte.toNat

theorem length_chars (alphabet : Alphabet) (bytes : Bytes) :
    (chars alphabet bytes).length = (4 * bytes.length + 2) / 3 := by
  have length_toValues : (toValues bytes).length = (4 * bytes.length + 2) / 3 := by
    fun_induction toValues bytes with
    | case1 a b c rest ih =>
      simp only [List.length_cons]
      omega
    | case2 | case3 | case4 => simp only [List.length_cons, List.length_nil]
  rw [chars, List.length_map, encode_eq, List.length_append, List.length_map, length_toValues]
  rfl

theorem mem_encode (sized : alphabet.length = 64) {byte : UInt8}
    (member : byte ∈ encode alphabet false bytes) : byte ∈ alphabet := by
  obtain ⟨value, given, rfl⟩ := List.mem_map.mp
    (show byte ∈ (toValues bytes).map (symbol alphabet) from member)
  have small : value < alphabet.length := sized ▸ lt_of_mem_toValues value given
  rw [symbol, List.getElem?_eq_getElem small]
  exact List.getElem_mem small

/-- What holds of all symbols holds of the characters of written bytes. -/
theorem all_chars {accepts : Char → Bool} (sized : alphabet.length = 64)
    (all : alphabet.all (fun byte => accepts (Char.ofNat byte.toNat)) = true) :
    (chars alphabet bytes).all accepts = true := by
  refine List.all_eq_true.mpr fun c member => ?_
  obtain ⟨byte, written, rfl⟩ := List.mem_map.mp member
  exact List.all_eq_true.mp all byte (mem_encode sized written)

/-- **Bytes are read back from symbols.** -/
theorem decode_chars (readable : IsReadable alphabet) (sized : alphabet.length = 64)
    (ascii : alphabet.all (fun byte => byte.toNat < 128) = true) :
    decode alphabet false (Text.encode (String.ofList (chars alphabet bytes))) = .ok bytes := by
  rw [chars, Text.encode_ascii fun byte member =>
    of_decide_eq_true (List.all_eq_true.mp ascii byte (mem_encode sized member))]
  exact (decode_eq_ok_iff readable sized).mpr rfl

end Base64

/-! ### Fields -/

namespace Text

theorem not_mem_of_all {accepts : Char → Bool} {text : List Char} {c : Char}
    (all : text.all accepts = true) (refused : accepts c = false) : c ∉ text := fun member =>
  Bool.false_ne_true (refused.symm.trans (List.all_eq_true.mp all c member))

/-- Pieces with a separator before each are found again. -/
theorem splitAll_fields {separator : Char} {first : List Char} {fields : List (List Char)}
    (absent : ∀ field ∈ first :: fields, separator ∉ field) :
    splitAll separator (first ++ fields.flatMap (separator :: ·)) = first :: fields := by
  induction fields generalizing first with
  | nil =>
    rw [List.flatMap_nil, List.append_nil]
    exact splitAll_eq_singleton (absent first List.mem_cons_self)
  | cons next others ih =>
    obtain ⟨here, there⟩ := List.forall_mem_cons.mp absent
    rw [List.flatMap_cons, List.cons_append, splitAll_append, splitAll_eq_singleton here, ih there]
    rfl

end Text

/-! ### Hash strings -/

namespace Phc

open Network (digit? digitValues)

theorem isDigit_of_digit? {c : Char} {value : Nat} (known : digit? 10 c = some value) :
    c.isDigit = true ∧ c.toNat - 48 = value := by
  simp only [digit?, Option.ite_none_right_eq_some, Option.some.injEq] at known
  obtain ⟨small, same⟩ := known
  by_cases digit : '0' ≤ c ∧ c ≤ '9'
  · rw [if_pos digit] at same
    have isDigit : c.isDigit = true := by
      rw [Char.isDigit, Bool.and_eq_true, decide_eq_true_eq, decide_eq_true_eq]
      exact digit
    exact ⟨isDigit, same⟩
  · rw [if_neg digit] at small
    split at small
    · omega
    · split at small <;> omega

/-- A number in decimal digits is read back. -/
theorem decimal?_toDigits {n : Nat} (fits : n < Nat.pow 2 32) :
    decimal? (Nat.toDigits 10 n) = some n := by
  have digits := @Network.isSome_digit? 10 (by decide) (by decide) n
  have values : ∀ {text : List Char}, (∀ c ∈ text, (digit? 10 c).isSome = true) → ∀ start,
      text.foldl (fun value digit => value * 10 + (digit.toNat - 48)) start =
        (text.filterMap (digit? 10)).foldl (fun value digit => value * 10 + digit) start := by
    intro text known start
    induction text generalizing start with
    | nil => rfl
    | cons c rest ih =>
      obtain ⟨here, there⟩ := List.forall_mem_cons.mp known
      obtain ⟨value, first⟩ := Option.isSome_iff_exists.mp here
      rw [List.foldl_cons, List.filterMap_cons, first, List.foldl_cons, ih there,
        (isDigit_of_digit? first).2]
  have given : (Nat.toDigits 10 n).isEmpty = false :=
    List.isEmpty_eq_false_iff.mpr Nat.toDigits_ne_nil
  have all : (Nat.toDigits 10 n).all Char.isDigit = true := by
    refine List.all_eq_true.mpr fun c member => ?_
    obtain ⟨value, known⟩ := Option.isSome_iff_exists.mp (digits c member)
    exact (isDigit_of_digit? known).1
  -- a number of several digits does not begin with a zero
  have unpadded : ((Nat.toDigits 10 n).head? = some '0' && 1 < (Nat.toDigits 10 n).length) =
      false := by
    refine Bool.eq_false_iff.mpr fun padded => ?_
    rw [Bool.and_eq_true, decide_eq_true_eq, decide_eq_true_eq] at padded
    obtain ⟨rest, written⟩ := List.head?_eq_some_iff.mp padded.1
    have zero : (digitValues 10 n).head? = some 0 := by
      rw [digitValues, written, List.filterMap_cons]
      rfl
    obtain rfl := Network.eq_zero_of_head? (by decide) (by decide) zero
    exact absurd padded.2 (by decide)
  have number := @Network.foldl_digitValues 10 (by decide) (by decide) n
  rw [decimal?, given, all, unpadded, values digits]
  dsimp only
  rw [show (Nat.toDigits 10 n).filterMap (digit? 10) = digitValues 10 n from rfl, number]
  exact if_pos fits

/-- A hash string with all its fields, each of them within its limits. -/
structure IsComplete (phc : Phc) : Prop where
  algorithm : isName phc.algorithm = true
  version : ∃ version, phc.version = some version ∧ version < Nat.pow 2 32
  some_parameter : phc.parameters ≠ []
  parameter : ∀ parameter ∈ phc.parameters,
    isName parameter.1 = true ∧ isValue parameter.2 = true
  short : (parameterChars phc.parameters).length ≤ 127
  salt : ∃ salt, phc.salt = some salt ∧ isSalt salt = true
  output : ∃ output, phc.output = some output ∧ 10 ≤ output.length ∧ output.length ≤ 64

/-- Names, values and salts hold none of the characters that part them. -/
theorem not_mem_of_checked {bounded : Bool} {accepts : Char → Bool} {text : List Char} {c : Char}
    (checked : (bounded && text.all accepts) = true) (refused : accepts c = false) : c ∉ text := by
  rw [Bool.and_eq_true] at checked
  exact Text.not_mem_of_all checked.2 refused

theorem all_symbols (bytes : Bytes) : (symbols bytes).all isValueChar = true :=
  Base64.all_chars Base64.length_standard (by decide +kernel)

theorem bytes?_symbols (bytes : Bytes) : bytes? (symbols bytes) = some bytes := by
  have read := @Base64.decode_chars Base64.standard bytes Base64.isReadable_standard
    Base64.length_standard (by decide +kernel)
  rw [bytes?]
  exact read ▸ rfl

theorem parameter?_written {name value : List Char} (isName : isName name = true)
    (isValue : isValue value = true) : parameter? (name ++ '=' :: value) = some (name, value) := by
  have split := @Text.splitAll_fields '=' name [value] <| List.forall_mem_cons.mpr
    ⟨not_mem_of_checked isName (by decide), List.forall_mem_singleton.mpr
      (not_mem_of_checked isValue (by decide))⟩
  rw [List.flatMap_singleton] at split
  rw [parameter?, split]
  simp only [isName, isValue, Bool.and_self, if_true]

/-- A parameter in writing. -/
def written (parameter : List Char × List Char) : List Char := parameter.1 ++ '=' :: parameter.2

theorem parameterChars_cons (first : List Char × List Char) (others : List (List Char × List Char)) :
    parameterChars (first :: others) =
      written first ++ (others.map written).flatMap (',' :: ·) := by
  induction others generalizing first with
  | nil => exact (List.append_nil _).symm
  | cons next others ih =>
    rw [parameterChars, ih, List.map_cons, List.flatMap_cons, List.cons_append]
    · rfl
    · exact fun nothing => List.cons_ne_nil _ _ nothing

variable {parameters : List (List Char × List Char)}

theorem not_mem_written {c : Char} (name : isNameChar c = false) (value : isValueChar c = false)
    (other : c ≠ '=')
    (valid : ∀ parameter ∈ parameters, isName parameter.1 = true ∧ isValue parameter.2 = true) :
    ∀ field ∈ parameters.map written, c ∉ field := by
  intro field member inside
  obtain ⟨parameter, given, rfl⟩ := List.mem_map.mp member
  obtain ⟨isName, isValue⟩ := valid parameter given
  obtain before | after := List.mem_append.mp inside
  · exact not_mem_of_checked isName name before
  · obtain same | after := List.mem_cons.mp after
    · exact other same
    · exact not_mem_of_checked isValue value after

theorem not_mem_parameterChars
    (valid : ∀ parameter ∈ parameters, isName parameter.1 = true ∧ isValue parameter.2 = true) :
    '$' ∉ parameterChars parameters := by
  cases parameters with
  | nil => exact List.not_mem_nil
  | cons first others =>
    obtain ⟨here, there⟩ := List.forall_mem_cons.mp
      (@not_mem_written _ '$' (by decide) (by decide) (by decide) valid)
    rw [parameterChars_cons]
    intro inside
    obtain inside | inside := List.mem_append.mp inside
    · exact here inside
    · obtain ⟨field, given, inside⟩ := List.mem_flatMap.mp inside
      obtain same | inside := List.mem_cons.mp inside
      · exact absurd same (by decide)
      · exact there field given inside

theorem parameters?_written (nonempty : parameters ≠ [])
    (valid : ∀ parameter ∈ parameters, isName parameter.1 = true ∧ isValue parameter.2 = true)
    (short : (parameterChars parameters).length ≤ 127) :
    parameters? (parameterChars parameters) = .some parameters := by
  have split : Text.splitAll ',' (parameterChars parameters) = parameters.map written := by
    obtain ⟨first, others, rfl⟩ := List.exists_cons_of_ne_nil nonempty
    rw [parameterChars_cons]
    exact Text.splitAll_fields (not_mem_written (by decide) (by decide) (by decide) valid)
  rw [parameters?, if_pos short, split]
  clear nonempty short split
  induction parameters with
  | nil => rfl
  | cons first others ih =>
    obtain ⟨here, there⟩ := List.forall_mem_cons.mp valid
    rw [List.map_cons, List.mapM_cons, written, parameter?_written here.1 here.2, ih there]
    rfl

theorem isValue_toDigits {n : Nat} (fits : n < Nat.pow 2 32) :
    isValue (Nat.toDigits 10 n) = true := by
  have few : (Nat.toDigits 10 n).length ≤ 64 :=
    (Nat.length_toDigits_le_iff (by decide) (by decide)).mpr (Nat.lt_trans fits (by decide))
  rw [isValue, decide_eq_true few, Bool.true_and]
  refine List.all_eq_true.mpr fun c member => ?_
  obtain ⟨value, known⟩ := Option.isSome_iff_exists.mp
    (@Network.isSome_digit? 10 (by decide) (by decide) n c member)
  rw [isValueChar, Char.isAlphanum, (isDigit_of_digit? known).1]
  simp only [Bool.or_true, Bool.true_or]

theorem not_mem_version {n : Nat} {c : Char} (fits : n < Nat.pow 2 32)
    (refused : isValueChar c = false) (other : c ≠ '=') :
    c ∉ 'v' :: '=' :: Nat.toDigits 10 n := by
  intro member
  obtain rfl | member := List.mem_cons.mp member
  · exact absurd refused (by decide)
  obtain same | inside := List.mem_cons.mp member
  · exact other same
  · exact not_mem_of_checked (isValue_toDigits fits) refused inside

theorem takeVersion?_written {n : Nat} {rest : List (List Char)} (fits : n < Nat.pow 2 32) :
    takeVersion? (('v' :: '=' :: Nat.toDigits 10 n) :: rest) = some (some n, rest) := by
  have value := isValue_toDigits fits
  have single : ('v' :: '=' :: Nat.toDigits 10 n).contains ',' = false :=
    Bool.eq_false_iff.mpr fun comma =>
      not_mem_version fits (by decide) (by decide) (List.contains_iff_mem.mp comma)
  have value_after : Text.dropPrefix? ['v', '='] ('v' :: '=' :: Nat.toDigits 10 n) =
      some (Nat.toDigits 10 n) := Text.dropPrefix?_eq_some_iff.mpr rfl
  rw [takeVersion?, value_after]
  simp only [single, value, decimal?_toDigits fits, Option.map_some, Bool.false_eq_true, if_false,
    if_true]

theorem takeParameters?_written {rest : List (List Char)} (nonempty : parameters ≠ [])
    (valid : ∀ parameter ∈ parameters, isName parameter.1 = true ∧ isValue parameter.2 = true)
    (short : (parameterChars parameters).length ≤ 127) :
    takeParameters? (parameterChars parameters :: rest) = .some (parameters, rest) := by
  have assigned : (parameterChars parameters).contains '=' = true := by
    obtain ⟨first, others, rfl⟩ := List.exists_cons_of_ne_nil nonempty
    rw [List.contains_iff_mem, parameterChars_cons]
    exact List.mem_append_left _ (List.mem_append_right _ List.mem_cons_self)
  rw [takeParameters?, if_pos assigned, parameters?_written nonempty valid short]
  rfl

theorem takeSalted?_written {salt : List Char} {output : Bytes} (salted : isSalt salt = true)
    (sized : 10 ≤ output.length ∧ output.length ≤ 64) :
    takeSalted? [salt, symbols output] = some (some salt, some output) := by
  have read : output? (symbols output) = some output := by
    rw [output?, bytes?_symbols, Option.filter_some, decide_eq_true sized.1,
      decide_eq_true sized.2]
    rfl
  rw [takeSalted?, if_pos salted, read]
  rfl

/-- **A complete hash string is read back.** -/
theorem parse?_toChars {phc : Phc} (complete : phc.IsComplete) : parse? phc.toChars = some phc := by
  obtain ⟨version, version_eq, fits⟩ := complete.version
  obtain ⟨salt, salt_eq, salted⟩ := complete.salt
  obtain ⟨output, output_eq, sized⟩ := complete.output
  have fields : phc.toChars = [] ++ [phc.algorithm, 'v' :: '=' :: Nat.toDigits 10 version,
      parameterChars phc.parameters, salt, symbols output].flatMap ('$' :: ·) := by
    rw [toChars, version_eq, salt_eq, output_eq, if_neg fun empty =>
      complete.some_parameter (List.isEmpty_iff.mp empty)]
    simp only [field, Option.map_some, Option.getD_some, List.flatMap_cons, List.flatMap_nil,
      List.append_assoc, List.nil_append, List.append_nil]
  have split : Text.splitAll '$' phc.toChars = [[], phc.algorithm,
      'v' :: '=' :: Nat.toDigits 10 version, parameterChars phc.parameters, salt,
      symbols output] := by
    rw [fields]
    refine Text.splitAll_fields ?_
    simp only [List.forall_mem_cons]
    refine ⟨List.not_mem_nil, not_mem_of_checked complete.algorithm (by decide), ?_,
      not_mem_parameterChars complete.parameter, not_mem_of_checked salted (by decide), ?_, nofun⟩
    · exact not_mem_version fits (by decide) (by decide)
    · exact Text.not_mem_of_all (all_symbols output) (by decide)
  rw [parse?, split]
  simp only [complete.algorithm, Bool.not_true, Bool.false_eq_true, if_false, Option.bind_eq_bind,
    Option.bind_some, Option.pure_def, takeVersion?_written fits, takeSalted?_written salted sized,
    takeParameters?_written complete.some_parameter complete.parameter complete.short]
  rw [← version_eq, ← salt_eq, ← output_eq]

end Phc

/-! ### Bcrypt hashes -/

namespace Bcrypt

theorem isReadable_alphabet : Base64.IsReadable alphabet := by
  unfold Base64.IsReadable
  decide +kernel

theorem length_alphabet : alphabet.length = 64 := by decide +kernel

theorem unsymbols?_symbols (bytes : Bytes) : unsymbols? (symbols bytes) = some bytes := by
  have read := @Base64.decode_chars alphabet bytes isReadable_alphabet length_alphabet
    (by decide +kernel)
  rw [unsymbols?]
  exact read ▸ rfl

theorem not_mem_symbols (bytes : Bytes) : '$' ∉ symbols bytes :=
  @Text.not_mem_of_all (· != '$') _ _
    (Base64.all_chars length_alphabet (by decide +kernel)) rfl

/-- An admitted cost is read back from its two digits. -/
theorem readCost?_costDigits {cost : Nat} (admitted : admitsCost cost = true) :
    readCost? (costDigits cost) = some cost ∧ '$' ∉ costDigits cost := by
  have each : ∀ cost < 32, readCost? (costDigits cost) = some cost ∧ '$' ∉ costDigits cost := by
    decide
  rw [admitsCost, Bool.and_eq_true, decide_eq_true_eq, decide_eq_true_eq] at admitted
  exact each cost (Nat.lt_succ_of_le admitted.2)

/-- A written hash is read back in its parts. -/
theorem split?_written {cost : Nat} {salt digest : Bytes} (admitted : admitsCost cost = true)
    (salted : salt.length = 16) (sized : digest.length = 23) :
    split? ("$2b$".toList ++ costDigits cost ++ '$' :: symbols salt ++ symbols digest) =
      some ⟨cost, symbols salt, symbols digest⟩ := by
  obtain ⟨read, absent⟩ := readCost?_costDigits admitted
  have salt_symbols : (symbols salt).length = 22 := by
    rw [show symbols salt = Base64.chars alphabet salt from rfl, Base64.length_chars, salted]
  have digest_symbols : (symbols digest).length = 31 := by
    rw [show symbols digest = Base64.chars alphabet digest from rfl, Base64.length_chars, sized]
  have fields : "$2b$".toList ++ costDigits cost ++ '$' :: symbols salt ++ symbols digest =
      [] ++ [['2', 'b'], costDigits cost, symbols salt ++ symbols digest].flatMap ('$' :: ·) := by
    simp
  have split : Text.splitAll '$'
      ("$2b$".toList ++ costDigits cost ++ '$' :: symbols salt ++ symbols digest) =
        [[], ['2', 'b'], costDigits cost, symbols salt ++ symbols digest] := by
    rw [fields]
    refine Text.splitAll_fields ?_
    simp only [List.forall_mem_cons, List.mem_append, not_or]
    exact ⟨List.not_mem_nil, by decide, absent, ⟨not_mem_symbols salt, not_mem_symbols digest⟩,
      nofun⟩
  have whole : (symbols salt ++ symbols digest).length = 53 := by
    rw [List.length_append, salt_symbols, digest_symbols]
  have filled : (symbols salt ++ symbols digest).isEmpty = false :=
    List.isEmpty_eq_false_iff.mpr fun empty => by rw [empty] at whole; exact nomatch whole
  have given : [[], ['2', 'b'], costDigits cost, symbols salt ++ symbols digest].filter
      (fun field => !field.isEmpty) =
        [['2', 'b'], costDigits cost, symbols salt ++ symbols digest] := by
    simp only [List.filter_cons, List.filter_nil, List.isEmpty_nil, List.isEmpty_cons, costDigits,
      filled, Bool.not_true, Bool.not_false, Bool.false_eq_true, if_false, if_true]
  rw [split?, split, given]
  dsimp only
  rw [if_pos ⟨by decide, whole⟩, read, List.take_left' salt_symbols, List.drop_left' salt_symbols]
  rfl

end Bcrypt

end Gatehouse
