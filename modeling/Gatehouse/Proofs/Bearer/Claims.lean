/-
**What a payload claims.**

A payload is an object whose entries are the claims. Five of them have a meaning of their own and
may be written once only; of any other claims with one name the last one counts.

* `Claims.Reads`: the claims that entries make; `Claims.ofEntries_eq_ok_iff`;
* `Claims.user?_eq_some_iff`: the user that claims name;
* `Claims.Admits`: the audiences that are for somebody;
* `Claims.check_eq_ok_iff`: the claims that hold at a time, for an issuer and an audience.
-/

import Gatehouse.Bearer.Claims
import Gatehouse.Proofs.Json.Writing
import Mathlib.Data.List.Induction

namespace Gatehouse

/-! ### Computations that may fail -/

section Except

variable {ε δ α β : Type}

theorem bind_eq_ok_iff {first : Except ε α} {next : α → Except ε β} {result : β} :
    (first >>= next) = .ok result ↔ ∃ value, first = .ok value ∧ next value = .ok result := by
  cases first with
  | error error =>
    constructor
    · intro impossible; cases impossible
    · rintro ⟨_, impossible, _⟩; cases impossible
  | ok value =>
    constructor
    · intro given; exact ⟨value, rfl, given⟩
    · rintro ⟨_, same, given⟩; cases same; exact given

theorem mapError_eq_ok_iff {first : Except ε α} {change : ε → δ} {value : α} :
    first.mapError change = .ok value ↔ first = .ok value := by
  cases first <;> simp [Except.mapError]

end Except

/-! ### Entries with one name -/

namespace Entries

variable {α β : Type}

/-- The value found under a name is that of the first entry with the name. -/
theorem find?_eq_head? (name : String) (entries : Entries α) :
    entries.find? name = (entries.filter fun entry => entry.1 = name).head?.map (·.2) := by
  induction entries with
  | nil => rfl
  | cons entry rest ih =>
    obtain ⟨key, value⟩ := entry
    by_cases here : name = key
    · rw [find?, if_pos here, List.filter_cons_of_pos (by simp [here])]
      rfl
    · rw [find?, if_neg here, List.filter_cons_of_neg (by simp [Ne.symm here]), ih]

/-- The order of entries does not matter for a name that occurs once only. -/
theorem find?_of_perm {name : String} {entries others : Entries α} (same : entries.Perm others)
    (single : (others.filter fun entry => entry.1 = name).length ≤ 1) :
    entries.find? name = others.find? name := by
  have named := same.filter fun entry => decide (entry.1 = name)
  rw [find?_eq_head?, find?_eq_head?]
  generalize (others.filter fun entry => entry.1 = name) = few at single named
  match few with
  | [] => rw [List.perm_nil.mp named]
  | [_] => rw [List.perm_singleton.mp named]

theorem find?_map_filter (keep : String → Bool) (change : α → β) (name : String)
    (entries : Entries α) :
    find? name ((entries.filter fun entry => keep entry.1).map fun entry =>
        (entry.1, change entry.2)) =
      if keep name then (entries.find? name).map change else none := by
  induction entries with
  | nil =>
    rw [List.filter_nil, List.map_nil, find?_nil, find?_nil]
    split <;> rfl
  | cons entry rest ih =>
    obtain ⟨key, value⟩ := entry
    by_cases kept : keep key = true
    · rw [@List.filter_cons_of_pos _ (fun entry => keep entry.1) (key, value) rest kept,
        List.map_cons, find?, find?, ih]
      by_cases here : name = key
      · rw [if_pos here, if_pos here, here, if_pos kept]
        rfl
      · rw [if_neg here, if_neg here]
    · rw [@List.filter_cons_of_neg _ (fun entry => keep entry.1) (key, value) rest kept, ih]
      by_cases here : name = key
      · rw [here, if_neg kept, if_neg kept]
      · rw [find?, if_neg here]

end Entries

/-- Of pairs with one name the later one counts. -/
theorem Table.find?_ofList {α : Type} (pairs : List (String × α)) (name : String) :
    (Table.ofList pairs).find? name = Entries.find? name pairs.reverse := by
  induction pairs using List.reverseRecOn with
  | nil => rfl
  | append_singleton pairs pair ih =>
    have put : Table.ofList (pairs ++ [pair]) = (Table.ofList pairs).put pair.1 pair.2 :=
      List.foldl_concat ..
    rw [put, Table.find?_put, ih, List.reverse_append]
    rfl

theorem Tree.canonical_eq_text_iff {tree : Tree} {text : String} :
    tree.canonical = .text text ↔ tree = .text text := by
  cases tree <;> simp [Tree.canonical]

theorem Tree.canonicalItems_eq (items : List Tree) :
    canonicalItems items = items.map canonical := by
  induction items with
  | nil => rfl
  | cons item rest ih => rw [canonicalItems, List.map_cons, ih]

namespace Bearer.Claims

open Text (Bytes)

/-! ### Single claims -/

theorem optionalText_eq_ok_iff {entries : Entries Tree} {name : String} {value : Option String} :
    optionalText entries name = .ok value ↔
      valueOf entries name = (value.map Tree.text).getD .null := by
  unfold optionalText
  cases valueOf entries name <;> cases value <;> simp [eq_comm]

theorem time?_eq_some_iff {value : Tree} {time : Nat} :
    time? value = some time ↔ value = .int time ∧ time < timeBound := by
  cases value with
  | int value =>
    simp only [time?, Option.ite_none_right_eq_some, Option.some.injEq, Tree.int.injEq]
    constructor
    · rintro ⟨⟨positive, bounded⟩, rfl⟩
      exact ⟨(Int.toNat_of_nonneg positive).symm, bounded⟩
    · rintro ⟨rfl, bounded⟩
      exact ⟨⟨Int.natCast_nonneg time, bounded⟩, rfl⟩
  | _ => simp [time?]

/-- A claim that is not there has no value. -/
theorem valueOf_of_countOf {entries : Entries Tree} {name : String}
    (absent : countOf entries name = 0) : valueOf entries name = .null := by
  rw [valueOf, Entries.find?_eq_head?, List.eq_nil_of_length_eq_zero absent]
  rfl

theorem expiry_eq_ok_iff {entries : Entries Tree} {time : Nat} :
    expiry entries = .ok time ↔ valueOf entries "exp" = .int time ∧ time < timeBound := by
  rw [← time?_eq_some_iff]
  unfold expiry
  by_cases absent : countOf entries "exp" = 0
  · rw [if_pos absent, valueOf_of_countOf absent]
    simp [time?]
  · rw [if_neg absent]
    cases time? (valueOf entries "exp") <;> simp

/-! ### All claims -/

/-- The claims that the entries of a payload make. -/
structure Reads (entries : Entries Tree) (claims : Claims) : Prop where
  single : ∀ name ∈ knownNames, countOf entries name ≤ 1
  subject : valueOf entries "sub" = (claims.subject.map Tree.text).getD .null
  expires : valueOf entries "exp" = .int claims.expires ∧ claims.expires < timeBound
  issued : checkIssued entries = .ok ()
  issuer : valueOf entries "iss" = (claims.issuer.map Tree.text).getD .null
  notBefore : checkNotBefore entries = .ok ()
  audience : valueOf entries "aud" = claims.audience
  others : ∀ name, claims.others.find? name =
    if name ∈ knownNames then none else (Entries.find? name entries.reverse).map Tree.canonical

/-- The claims without a meaning of their own, by name. -/
theorem find?_others (entries : Entries Tree) (name : String) :
    (Table.ofList ((entries.filter fun entry => entry.1 ∉ knownNames).map fun entry =>
        (entry.1, entry.2.canonical))).find? name =
      if name ∈ knownNames then none
      else (Entries.find? name entries.reverse).map Tree.canonical := by
  have found := Entries.find?_map_filter (fun key => decide (key ∉ knownNames)) Tree.canonical name
    entries.reverse
  rw [Table.find?_ofList, ← List.map_reverse, ← List.filter_reverse]
  refine found.trans ?_
  by_cases known : name ∈ knownNames <;> simp [known]

theorem ofEntries_eq_ok_iff {entries : Entries Tree} {claims : Claims} :
    ofEntries entries = .ok claims ↔ Reads entries claims := by
  have once : (knownNames.find? fun name => 1 < countOf entries name) = none ↔
      ∀ name ∈ knownNames, countOf entries name ≤ 1 := by
    simp only [List.find?_eq_none, decide_eq_true_eq, Nat.not_lt]
  unfold ofEntries
  constructor
  · intro read
    split at read
    · cases read
    · next absent =>
      obtain ⟨subject, given, read⟩ := bind_eq_ok_iff.mp read
      obtain ⟨expires, time, read⟩ := bind_eq_ok_iff.mp read
      obtain ⟨_, issued, read⟩ := bind_eq_ok_iff.mp read
      obtain ⟨issuer, named, read⟩ := bind_eq_ok_iff.mp read
      obtain ⟨_, notBefore, read⟩ := bind_eq_ok_iff.mp read
      cases read
      exact ⟨once.mp absent, optionalText_eq_ok_iff.mp given, expiry_eq_ok_iff.mp time, issued,
        optionalText_eq_ok_iff.mp named, notBefore, rfl, find?_others entries⟩
  · intro reads
    rw [once.mpr reads.single]
    simp only [optionalText_eq_ok_iff.mpr reads.subject, expiry_eq_ok_iff.mpr reads.expires,
      reads.issued, optionalText_eq_ok_iff.mpr reads.issuer, reads.notBefore, reads.audience, bind,
      Except.bind, pure, Except.pure]
    have others := Table.ext_find? fun name =>
      (find?_others entries name).trans (reads.others name).symm
    rw [others]

/-- The claims of a payload are those of the object that it spells. -/
theorem ofBytes_eq_ok_iff {bytes : Bytes} {claims : Claims} :
    ofBytes bytes = .ok claims ↔
      ∃ entries, Json.Reads bytes (.object entries) ∧ Reads entries claims := by
  unfold ofBytes Json.Reads
  constructor
  · intro read
    split at read
    · cases read
    · next entries spelled => exact ⟨entries, spelled, ofEntries_eq_ok_iff.mp read⟩
    · cases read
  · rintro ⟨entries, spelled, reads⟩
    rw [spelled]
    exact ofEntries_eq_ok_iff.mpr reads

/-! ### The user -/

theorem user?_eq_some_iff {entries : Entries Tree} {claims : Claims} (reads : Reads entries claims)
    {name user : String} :
    claims.user? name = some user ↔
      user ≠ "" ∧ (name ∈ knownNames → name = subjectName) ∧
        Entries.find? name entries.reverse = some (.text user) := by
  unfold user?
  rw [Option.filter_eq_some_iff, decide_eq_true_eq, and_comm, and_congr_right_iff]
  intro _
  by_cases usual : name = subjectName
  · subst usual
    have given := reads.subject
    rw [valueOf] at given
    rw [if_pos rfl, Entries.find?_of_perm entries.reverse_perm (reads.single _ (by decide))]
    change (entries.find? subjectName).getD .null = _ at given
    cases found : entries.find? subjectName <;> cases named : claims.subject <;>
      rw [found, named] at given <;> simp_all
  · rw [if_neg usual, reads.others name]
    by_cases known : name ∈ knownNames
    · simp [known, usual]
    · rw [if_neg known]
      cases found : Entries.find? name entries.reverse with
      | none => simp [known]
      | some value =>
        rw [Option.map_some, Option.some.injEq, ← Tree.canonical_eq_text_iff]
        cases value.canonical <;> simp [known]

/-! ### Issuer and audience -/

/-- An audience is the given one or lists it, unless it is neither a text nor a list of texts. -/
def Admits (audience : String) (given : Tree) : Prop :=
  (∀ text, given = .text text → text = audience) ∧
    ∀ texts : List String, given = .list (texts.map .text) → audience ∈ texts

theorem allTexts?_eq_some_iff {items : List Tree} {texts : List String} :
    allTexts? items = some texts ↔ items = texts.map Tree.text := by
  unfold allTexts?
  induction items generalizing texts with
  | nil => simp [eq_comm]
  | cons item rest ih =>
    rw [List.mapM_cons, Option.bind_eq_bind, Option.bind_eq_some_iff]
    cases item with
    | text text =>
      cases texts with
      | nil => simp [Option.bind_eq_some_iff]
      | cons first others => simp [Option.bind_eq_some_iff, ← ih, and_comm]
    | _ => cases texts <;> simp

theorem admitsAudience_iff {audience : String} {given : Tree} :
    admitsAudience audience given = true ↔ Admits audience given := by
  unfold admitsAudience Admits
  cases given with
  | text text => simp
  | list items => simp [Option.all_eq_true, allTexts?_eq_some_iff]
  | _ => simp

/-- **Claims hold** at a time, for an issuer and an audience, exactly if they have not expired by
more than the leeway, name this issuer or none, and are for this audience or for none that is
compared. -/
theorem check_eq_ok_iff {now : Nat} {issuer audience : Option String} {claims result : Claims} :
    check now issuer audience claims = .ok result ↔
      result = claims ∧ now ≤ claims.expires + leeway ∧
        (∀ expected, issuer = some expected → ∀ given, claims.issuer = some given →
          given = expected) ∧
        ∀ expected, audience = some expected → Admits expected claims.audience := by
  have from_issuer : (issuer.all fun expected => claims.issuer.all fun given => given = expected) =
      true ↔ ∀ expected, issuer = some expected → ∀ given, claims.issuer = some given →
        given = expected := by
    simp [Option.all_eq_true]
  have for_audience : (audience.all fun expected => admitsAudience expected claims.audience) =
      true ↔ ∀ expected, audience = some expected → Admits expected claims.audience := by
    simp [Option.all_eq_true, admitsAudience_iff]
  rw [← from_issuer, ← for_audience]
  unfold check isExpired
  by_cases expired : claims.expires + leeway < now
  · have late : ¬ now ≤ claims.expires + leeway := Nat.not_le.mpr expired
    simp [expired, late]
  · rw [if_neg (by simpa using expired)]
    have lasting : now ≤ claims.expires + leeway := Nat.not_lt.mp expired
    cases issuer.all fun expected => claims.issuer.all fun given => given = expected
    · simp
    · cases audience.all fun expected => admitsAudience expected claims.audience
      · simp
      · simp [lasting, eq_comm]

end Bearer.Claims

end Gatehouse
