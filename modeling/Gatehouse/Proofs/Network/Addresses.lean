/-
**Addresses are read back.**

The text of an address is read as this address, before anything that goes on neither its last number
nor its last group. Of version six the double colon stands for the zero groups that were left out,
and a version four address inside it is read as two groups.

* `IpAddress.longestRun_spec`: what the text of eight groups leaves out;
* `Network.groups_true`: groups with colons between them are read back;
* **`Network.version6?_toText`**, **`Network.version4?_toText`**: the text of an address;
* **`IpAddress.parse?_toText`**, **`SocketAddress.parse?_toText`**: whole texts.
-/

import Gatehouse.Proofs.Network.Numbers

namespace Gatehouse

/-! ### What is left out -/

namespace IpAddress

theorem replicate_zeroRun (groups : List UInt16) :
    groups = List.replicate (zeroRun groups) 0 ++ groups.drop (zeroRun groups) := by
  unfold zeroRun
  induction groups with
  | nil => rfl
  | cons group rest ih =>
    rw [List.takeWhile_cons]
    split
    case isTrue zero =>
      obtain rfl := of_decide_eq_true zero
      rw [List.length_cons, List.replicate_succ, List.drop_succ_cons, List.cons_append, ← ih]
    case isFalse => rfl

/-- The longest run of zero groups, with what stands before and behind it. -/
theorem longestRun_spec (groups : List UInt16) :
    groups = groups.take (longestRun groups).1 ++
      (List.replicate (longestRun groups).2 0 ++
        groups.drop ((longestRun groups).1 + (longestRun groups).2)) := by
  induction groups with
  | nil => rfl
  | cons group rest ih =>
    rw [longestRun]
    dsimp only
    split
    case isTrue =>
      rw [Nat.zero_add, List.take_zero, List.nil_append]
      exact replicate_zeroRun _
    case isFalse =>
      rw [Nat.add_right_comm, List.take_succ_cons, List.drop_succ_cons, List.cons_append, ← ih]

/-- The groups before and behind the longest run, and the run itself, are all groups. -/
theorem length_longestRun (groups : List UInt16) :
    (groups.take (longestRun groups).1).length + ((longestRun groups).2 +
      (groups.drop ((longestRun groups).1 + (longestRun groups).2)).length) = groups.length := by
  have split := congrArg List.length (longestRun_spec groups)
  rw [List.length_append, List.length_append, List.length_replicate] at split
  exact split.symm

end IpAddress

namespace Network

open IpAddress

variable {rest text : List Char}

/-! ### Groups -/

/-- The digits of a group. -/
def groupChars (group : UInt16) : List Char := Nat.toDigits 16 group.toNat

/-- Groups, each behind a colon. -/
def colonGroups (groups : List UInt16) : List Char :=
  groups.flatMap fun group => ':' :: groupChars group

theorem toList_groupsText_cons (group : UInt16) (groups : List UInt16) :
    (groupsText (group :: groups)).toList = groupChars group ++ colonGroups groups := by
  have single : ∀ group, (groupText group).toList = groupChars group := fun group =>
    String.toList_ofList
  induction groups generalizing group with
  | nil =>
    rw [groupsText, List.map_cons, List.map_nil, String.intercalate_singleton, single]
    exact (List.append_nil _).symm
  | cons next groups ih =>
    have others := ih next
    unfold groupsText at others ⊢
    rw [List.map_cons] at others
    rw [List.map_cons, List.map_cons, String.intercalate_cons_cons, String.toList_append,
      String.toList_append, others, single, List.append_assoc]
    rfl

/-- A text that goes on neither a group nor a list of groups. -/
structure Ends (text : List Char) : Prop where
  digit : NoDigit 16 text
  point : text.head? ≠ some '.'
  stops : ∀ limit, groups false limit text = ([], false, text)

theorem groups_of_separator {first : Bool} (absent : separator? first text = none) (limit : Nat) :
    groups first limit text = ([], false, text) := by
  cases limit with
  | zero => rfl
  | succ limit => rw [groups, absent]

theorem ends_nil : Ends [] :=
  ⟨nofun, nofun, groups_of_separator rfl⟩

theorem ends_cons {c : Char} (digit : digit? 16 c = none) (point : c ≠ '.') (colon : c ≠ ':') :
    Ends (c :: rest) :=
  ⟨noDigit_cons digit, fun same => point (Option.some.inj same),
    groups_of_separator (if_neg colon)⟩

/-- Without a digit no group begins. -/
theorem groups_of_noDigit {first : Bool} {limit : Nat} {inner : List Char}
    (begins : separator? first text = some inner) (digit : NoDigit 16 inner)
    (point : inner.head? ≠ some '.') : groups first limit text = ([], false, text) := by
  cases limit with
  | zero => rfl
  | succ limit =>
    have absent : dotted? inner = none := dotted?_of_noDigit digit point
    rw [groups, begins]
    simp only [absent, ite_self, number?_of_noDigit digit]

theorem ends_colons : Ends (':' :: ':' :: rest) :=
  ⟨noDigit_cons (by decide), by simp,
    fun _ => groups_of_noDigit rfl (noDigit_cons (by decide)) (by simp)⟩

/-- A group is read, and then those behind it. -/
theorem groups_group {first : Bool} {limit : Nat} {group : UInt16}
    (begins : separator? first text = some (groupChars group ++ rest)) (digit : NoDigit 16 rest)
    (point : rest.head? ≠ some '.') :
    groups first (limit + 1) text =
      (group :: (groups false limit rest).1, (groups false limit rest).2) := by
  have absent : dotted? (groupChars group ++ rest) = none :=
    dotted?_of_hex (isSome_digit? (by decide) (by decide) _) digit point
  have below : group.toNat < 65536 := group.toNat_lt
  have read : number? 16 65536 (some 4) true (groupChars group ++ rest) =
      some (group.toNat, rest) := by
    refine number?_toDigits true (by decide) (by decide) below ?_ digit
    rintro most ⟨⟩
    exact ⟨by decide, by omega⟩
  rw [groups, begins]
  simp only [absent, ite_self, read, Nat.toUInt16, UInt16.ofNat_toNat]

theorem noDigit_colonGroups (groups : List UInt16) (digit : NoDigit 16 rest) :
    NoDigit 16 (colonGroups groups ++ rest) := by
  cases groups with
  | nil => exact digit
  | cons group groups => exact noDigit_cons (by decide)

theorem head?_colonGroups (groups : List UInt16) (point : rest.head? ≠ some '.') :
    (colonGroups groups ++ rest).head? ≠ some '.' := by
  cases groups with
  | nil => exact point
  | cons group groups => exact fun same => absurd (Option.some.inj same) (by decide)

/-- Groups behind colons are read back. -/
theorem groups_false {limit : Nat} {list : List UInt16} (ends : Ends rest)
    (fits : list.length ≤ limit) : groups false limit (colonGroups list ++ rest) = (list, false, rest) := by
  induction list generalizing limit with
  | nil => exact ends.stops limit
  | cons group list ih =>
    obtain ⟨limit, rfl⟩ := Nat.exists_eq_add_one_of_ne_zero (Nat.ne_zero_of_lt fits)
    have begins : separator? false (colonGroups (group :: list) ++ rest) =
        some (groupChars group ++ (colonGroups list ++ rest)) := by
      rw [← List.append_assoc]
      rfl
    rw [groups_group begins (noDigit_colonGroups list ends.digit)
      (head?_colonGroups list ends.point), ih (Nat.le_of_succ_le_succ fits)]

/-- **Groups with colons between them are read back.** -/
theorem groups_true {limit : Nat} {list : List UInt16} (ends : Ends rest)
    (fits : list.length ≤ limit) :
    groups true limit ((groupsText list).toList ++ rest) = (list, false, rest) := by
  cases list with
  | nil => exact groups_of_noDigit rfl ends.digit ends.point
  | cons group list =>
    obtain ⟨limit, rfl⟩ := Nat.exists_eq_add_one_of_ne_zero (Nat.ne_zero_of_lt fits)
    have begins : separator? true ((groupsText (group :: list)).toList ++ rest) =
        some (groupChars group ++ (colonGroups list ++ rest)) := by
      rw [toList_groupsText_cons, List.append_assoc]
      rfl
    rw [groups_group begins (noDigit_colonGroups list ends.digit)
      (head?_colonGroups list ends.point), groups_false ends (Nat.le_of_succ_le_succ fits)]

/-- No list of groups begins with four decimal bytes. -/
theorem dotted?_groupsText (list : List UInt16) (digit : NoDigit 16 rest)
    (point : rest.head? ≠ some '.') : dotted? ((groupsText list).toList ++ rest) = none := by
  cases list with
  | nil => exact dotted?_of_noDigit digit point
  | cons group list =>
    rw [toList_groupsText_cons, List.append_assoc]
    exact dotted?_of_hex (isSome_digit? (by decide) (by decide) _)
      (noDigit_colonGroups list digit) (head?_colonGroups list point)

/-! ### Version six -/

/-- What is read of a text with a double colon. -/
theorem version6?_doubleColon {head tail : List UInt16} {dotted : Bool} {inner : List Char}
    (before : groups true 8 text = (head, false, ':' :: ':' :: inner)) (few : head.length < 8)
    (behind : groups true (7 - head.length) inner = (tail, dotted, rest)) :
    version6? text = (ofGroups? (head ++ List.replicate (8 - head.length - tail.length) 0 ++
      tail)).map (·, rest) := by
  unfold version6?
  rw [before]
  dsimp only
  rw [if_neg (Nat.ne_of_lt few), if_neg Bool.false_ne_true]
  simp only [expect?, if_true, Option.bind_eq_bind, Option.bind_some, behind, Option.pure_def]
  cases ofGroups? (head ++ List.replicate (8 - head.length - tail.length) 0 ++ tail) <;> rfl

theorem ofGroups?_toList (groups : Vector UInt16 8) :
    ofGroups? groups.toList = some (.v6 groups) := by
  rw [ofGroups?, dif_pos groups.length_toList]
  rfl

/-- The text of eight groups is read back. -/
theorem version6?_compressed {groups : List UInt16} (eight : groups.length = 8) (ends : Ends rest) :
    version6? ((compressed groups).toList ++ rest) = (ofGroups? groups).map (·, rest) := by
  unfold compressed
  dsimp only
  split
  case isTrue several =>
    have lengths := length_longestRun groups
    have whole := longestRun_spec groups
    generalize groups.take (longestRun groups).1 = head at lengths whole ⊢
    generalize groups.drop ((longestRun groups).1 + (longestRun groups).2) = tail at lengths whole ⊢
    rw [eight] at lengths
    have text : (groupsText head ++ "::" ++ groupsText tail).toList ++ rest =
        (groupsText head).toList ++ ':' :: ':' :: ((groupsText tail).toList ++ rest) := by
      rw [String.toList_append, String.toList_append, List.append_assoc, List.append_assoc]
      rfl
    have zeros : 8 - head.length - tail.length = (longestRun groups).2 := by omega
    rw [text, version6?_doubleColon (groups_true ends_colons (by omega)) (by omega)
      (groups_true ends (by omega)), zeros, List.append_assoc, ← whole]
  case isFalse =>
    unfold version6?
    rw [groups_true ends (Nat.le_of_eq eight)]
    dsimp only
    rw [if_pos eight]
    cases ofGroups? groups <;> rfl

/-- The byte pair of a group makes up the group. -/
theorem join_bytesOf (group : UInt16) :
    (bytesOf group).1.toUInt16 <<< 8 ||| (bytesOf group).2.toUInt16 = group := by
  have below : group.toNat < 65536 := group.toNat_lt
  refine UInt16.toNat_inj.mp ?_
  simp only [bytesOf, UInt16.toNat_or, UInt16.toNat_shiftLeft, UInt8.toNat_toUInt16,
    UInt16.toNat_toUInt8, UInt16.toNat_shiftRight]
  show (group.toNat >>> 8 % 256) <<< 8 % 65536 ||| group.toNat % 256 = group.toNat
  have low : group.toNat % 256 < 2 ^ 8 := Nat.mod_lt _ (by decide)
  rw [Nat.shiftRight_eq_div_pow, Nat.shiftLeft_eq, Nat.mod_eq_of_lt (by omega), ← Nat.shiftLeft_eq,
    ← Nat.shiftLeft_add_eq_or_of_lt low, Nat.shiftLeft_eq]
  omega

/-- A version four address inside version six is read back. -/
theorem version6?_mapped (high low : UInt16) (ends : Ends rest) :
    version6? (("::ffff:" ++ dotted (bytesOf high).1 (bytesOf high).2 (bytesOf low).1
      (bytesOf low).2).toList ++ rest) =
      (ofGroups? [0, 0, 0, 0, 0, 0xFFFF, high, low]).map (·, rest) := by
  let four := (dotted (bytesOf high).1 (bytesOf high).2 (bytesOf low).1 (bytesOf low).2).toList
  have text : ("::ffff:" ++ dotted (bytesOf high).1 (bytesOf high).2 (bytesOf low).1
      (bytesOf low).2).toList ++ rest =
      ':' :: ':' :: (groupChars 0xFFFF ++ ':' :: (four ++ rest)) := by
    rw [String.toList_append, List.append_assoc]
    rfl
  have bytes : groups false 6 (':' :: (four ++ rest)) = ([high, low], true, rest) := by
    rw [groups]
    simp only [separator?, expect?, if_true, Bool.false_eq_true, if_false, four,
      dotted?_dotted _ _ _ _ ends.digit.ten, join_bytesOf, show 0 < 5 by decide]
  have behind : groups true 7 (groupChars 0xFFFF ++ ':' :: (four ++ rest)) =
      ([0xFFFF, high, low], true, rest) := by
    rw [groups_group rfl (noDigit_cons (by decide)) (by simp), bytes]
  have before : groups true 8 (':' :: ':' :: (groupChars 0xFFFF ++ ':' :: (four ++ rest))) =
      ([], false, ':' :: ':' :: (groupChars 0xFFFF ++ ':' :: (four ++ rest))) :=
    groups_of_noDigit rfl (noDigit_cons (by decide)) (by simp)
  rw [text, version6?_doubleColon before (by decide) behind]
  rfl

/-- **The text of a version six address** is read back. -/
theorem version6?_toText (groups : Vector UInt16 8) (ends : Ends rest) :
    version6? ((IpAddress.v6 groups).toText.toList ++ rest) = some (.v6 groups, rest) := by
  have whole := ofGroups?_toList groups
  have eight := groups.length_toList
  unfold IpAddress.toText
  dsimp only
  split
  case h_1 high low mapped =>
    rw [mapped] at whole
    rw [version6?_mapped high low ends, whole]
    rfl
  case h_2 =>
    rw [version6?_compressed eight ends, whole]
    rfl

/-- The text of a version six address begins with no version four address. -/
theorem version4?_of_v6 (groups : Vector UInt16 8) (ends : Ends rest) :
    version4? ((IpAddress.v6 groups).toText.toList ++ rest) = none := by
  have colon : ∀ {rest}, dotted? (':' :: rest) = none := fun {rest} =>
    dotted?_of_noDigit (noDigit_cons (by decide)) (by simp)
  have absent : dotted? ((IpAddress.v6 groups).toText.toList ++ rest) = none := by
    unfold IpAddress.toText
    dsimp only
    split
    case h_1 =>
      rw [String.toList_append, List.append_assoc]
      exact colon
    case h_2 =>
      unfold compressed
      dsimp only
      split
      case isTrue =>
        rw [String.toList_append, String.toList_append, List.append_assoc, List.append_assoc]
        exact dotted?_groupsText _ (noDigit_cons (by decide)) (by simp)
      case isFalse => exact dotted?_groupsText _ ends.digit ends.point
  rw [version4?, absent]
  rfl

/-- **The text of a version four address** is read back. -/
theorem version4?_toText (a b c d : UInt8) (ends : NoDigit 10 rest) :
    version4? ((IpAddress.v4 a b c d).toText.toList ++ rest) = some (.v4 a b c d, rest) := by
  rw [version4?, IpAddress.toText, dotted?_dotted a b c d ends]
  rfl

/-- A version four address alone is none of version six. -/
theorem version6?_of_v4 (a b c d : UInt8) (ends : NoDigit 10 rest) :
    version6? ((IpAddress.v4 a b c d).toText.toList ++ rest) = none := by
  have read : groups true 8 ((IpAddress.v4 a b c d).toText.toList ++ rest) =
      ([a.toUInt16 <<< 8 ||| b.toUInt16, c.toUInt16 <<< 8 ||| d.toUInt16], true, rest) := by
    rw [groups]
    simp only [separator?, if_true, IpAddress.toText, dotted?_dotted a b c d ends,
      show 0 < 7 by decide]
  unfold version6?
  rw [read]
  rfl

/-! ### Ports and scopes -/

theorem noDigit_nil {base : Nat} : NoDigit base [] := fun _ absent => nomatch absent

theorem port?_toDigits (port : UInt16) :
    port? (':' :: Nat.toDigits 10 port.toNat) = some (port, []) := by
  have below : port.toNat < 65536 := port.toNat_lt
  have read : number? 10 65536 none true (Nat.toDigits 10 port.toNat) = some (port.toNat, []) := by
    rw [← List.append_nil (Nat.toDigits 10 port.toNat)]
    exact number?_toDigits true (by decide) (by decide) below nofun noDigit_nil
  simp only [port?, expect?, if_true, Option.bind_eq_bind, Option.bind_some, read, Option.pure_def,
    Nat.toUInt16, UInt16.ofNat_toNat]

/-- The characters of a scope; none for zero. -/
def scopeChars (scope : UInt32) : List Char :=
  if scope = 0 then [] else '%' :: Nat.toDigits 10 scope.toNat

theorem scopeAt_scopeChars (scope : UInt32) :
    scopeAt (scopeChars scope ++ ']' :: rest) = (scope, ']' :: rest) := by
  unfold scopeChars
  split
  case isTrue zero =>
    subst zero
    rfl
  case isFalse =>
    have below : scope.toNat < Nat.pow 2 32 := scope.toNat_lt
    have read : number? 10 (Nat.pow 2 32) none true (Nat.toDigits 10 scope.toNat ++ ']' :: rest) =
        some (scope.toNat, ']' :: rest) :=
      number?_toDigits true (by decide) (by decide) below nofun (noDigit_cons (by decide))
    rw [List.cons_append]
    simp only [scopeAt, expect?, if_true, Option.bind_some, read, Nat.toUInt32, UInt32.ofNat_toNat]

end Network

open Network

/-! ### Whole texts -/

/-- **The text of an address is read as this address.** -/
theorem IpAddress.parse?_toText (ip : IpAddress) : parse? ip.toText = some ip := by
  unfold parse?
  rw [← List.append_nil ip.toText.toList]
  cases ip with
  | v4 a b c d =>
    rw [version4?_toText a b c d noDigit_nil]
    rfl
  | v6 groups =>
    rw [version4?_of_v6 groups ends_nil, version6?_toText groups ends_nil]
    rfl

/-- A text that begins with a square bracket is no address. -/
theorem IpAddress.parse?_bracket (text : List Char) : parse? (String.ofList ('[' :: text)) = none := by
  have four : dotted? ('[' :: text) = none :=
    dotted?_of_noDigit (noDigit_cons (by decide)) (by simp)
  have six : groups true 8 ('[' :: text) = ([], false, '[' :: text) :=
    groups_of_noDigit rfl (noDigit_cons (by decide)) (by simp)
  rw [parse?, String.toList_ofList, version4?, four, version6?, six]
  rfl

theorem SocketAddress.toList_v4 (a b c d : UInt8) (port : UInt16) (scope : UInt32) :
    (toText ⟨.v4 a b c d, port, scope⟩).toList =
      (IpAddress.v4 a b c d).toText.toList ++ ':' :: Nat.toDigits 10 port.toNat := by
  simp only [toText, String.toList_append, toList_toString, List.append_assoc]
  rfl

theorem SocketAddress.toList_v6 (groups : Vector UInt16 8) (port : UInt16) (scope : UInt32) :
    (toText ⟨.v6 groups, port, scope⟩).toList =
      '[' :: ((IpAddress.v6 groups).toText.toList ++
        (scopeChars scope ++ ']' :: ':' :: Nat.toDigits 10 port.toNat)) := by
  have shown : (if scope = 0 then "" else "%" ++ toString scope.toNat).toList = scopeChars scope := by
    unfold scopeChars
    split
    case isTrue => rfl
    case isFalse => rw [String.toList_append, toList_toString]; rfl
  simp only [toText, String.toList_append, toList_toString, shown, List.append_assoc]
  rfl

theorem ends_scopeChars (scope : UInt32) (rest : List Char) : Ends (scopeChars scope ++ ']' :: rest) := by
  unfold scopeChars
  split
  case isTrue => exact ends_cons (by decide) (by decide) (by decide)
  case isFalse => exact ends_cons (by decide) (by decide) (by decide)

/-- **The text of a socket address is read as this socket address.** Version four has no scope. -/
theorem SocketAddress.parse?_toText (address : SocketAddress)
    (unscoped : ∀ a b c d, address.ip = .v4 a b c d → address.scope = 0) :
    parse? address.toText = some address := by
  obtain ⟨ip, port, scope⟩ := address
  unfold parse?
  cases ip with
  | v4 a b c d =>
    obtain rfl : scope = 0 := unscoped a b c d rfl
    have colon : NoDigit 10 (':' :: Nat.toDigits 10 port.toNat) := noDigit_cons (by decide)
    rw [toList_v4, version4?_toText a b c d colon]
    simp only [port?_toDigits, Option.bind_eq_bind, Option.bind_some, Option.pure_def]
    rfl
  | v6 groups =>
    have four : version4? (toText ⟨.v6 groups, port, scope⟩).toList = none := by
      rw [toList_v6, version4?, dotted?_of_noDigit (noDigit_cons (by decide)) (by simp)]
      rfl
    rw [four, toList_v6]
    simp only [expect?, if_true, Option.bind_eq_bind, Option.bind_some, Option.bind_none,
      version6?_toText groups (ends_scopeChars scope _), scopeAt_scopeChars, port?_toDigits,
      Option.pure_def]
    rfl

end Gatehouse
