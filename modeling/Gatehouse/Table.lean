/-
**Ordered tables.**

A table holds named values with its names in ascending order, each once, so that two tables with
the same contents are equal and every listing of a table is in the order of its names.

* `Entries.find?_put_self`, `Entries.find?_put_of_ne`: what is put under a name is found there, and
  nothing else changes;
* `Entries.ascending_put`, `Entries.ascending_erase`: both operations keep the order;
* `Table.ext_find?`: a table is determined by what is found in it.
-/

namespace Gatehouse

/-- Named values, in the order they are listed. -/
abbrev Entries (α : Type u) := List (String × α)

namespace Entries

variable {α : Type u}

/-- Every name precedes the names after it. -/
def Ascending (entries : Entries α) : Prop :=
  entries.Pairwise fun earlier later => earlier.1 < later.1

/-- The value under a name. -/
def find? (name : String) : Entries α → Option α
  | [] => none
  | (other, value) :: rest => if name = other then some value else find? name rest

/-- Replace the value under a name, or insert it where the name belongs. -/
def put (name : String) (value : α) : Entries α → Entries α
  | [] => [(name, value)]
  | (other, old) :: rest =>
    if name = other then (name, value) :: rest
    else if name < other then (name, value) :: (other, old) :: rest
    else (other, old) :: put name value rest

def erase (name : String) (entries : Entries α) : Entries α :=
  entries.filter fun entry => entry.1 ≠ name

/-! ### Finding -/

@[simp] theorem find?_nil (name : String) : find? name ([] : Entries α) = none := rfl

theorem find?_put_self (name : String) (value : α) (entries : Entries α) :
    find? name (put name value entries) = some value := by
  induction entries with
  | nil => simp [put, find?]
  | cons entry rest ih =>
    obtain ⟨other, old⟩ := entry
    simp only [put]
    split
    · simp [find?]
    · next different =>
      split
      · simp [find?]
      · simp [find?, different, ih]

theorem find?_put_of_ne {name other : String} (different : name ≠ other) (value : α)
    (entries : Entries α) : find? name (put other value entries) = find? name entries := by
  induction entries with
  | nil => simp [put, find?, different]
  | cons entry rest ih =>
    obtain ⟨key, old⟩ := entry
    simp only [put]
    split
    · next same => subst same; simp [find?, different]
    · split
      · simp [find?, different]
      · simp [find?, ih]

/-- The value found under a name after putting one under another. -/
theorem find?_put (name other : String) (value : α) (entries : Entries α) :
    find? name (put other value entries) =
      if name = other then some value else find? name entries := by
  split
  · next same => subst same; exact find?_put_self _ _ _
  · next different => exact find?_put_of_ne different _ _

theorem find?_erase (name other : String) (entries : Entries α) :
    find? name (erase other entries) = if name = other then none else find? name entries := by
  induction entries with
  | nil => simp [erase, find?]
  | cons entry rest ih =>
    obtain ⟨key, old⟩ := entry
    by_cases dropped : key = other
    · have shorter : erase other ((key, old) :: rest) = erase other rest := by
        simp [erase, dropped]
      rw [shorter, ih]
      split
      · rfl
      · next different => simp [find?, dropped, different]
    · have kept : erase other ((key, old) :: rest) = (key, old) :: erase other rest := by
        simp [erase, dropped]
      rw [kept, find?, ih]
      by_cases here : name = key
      · subst here; simp [find?, dropped]
      · simp [find?, here]

theorem mem_of_find? {name : String} {value : α} {entries : Entries α}
    (found : find? name entries = some value) : (name, value) ∈ entries := by
  induction entries with
  | nil => simp [find?] at found
  | cons entry rest ih =>
    obtain ⟨key, old⟩ := entry
    simp only [find?] at found
    split at found
    · next same => subst same; cases found; exact List.mem_cons_self
    · exact List.mem_cons_of_mem _ (ih found)

/-- In ascending entries every entry is the one found under its name. -/
theorem find?_of_mem {name : String} {value : α} {entries : Entries α}
    (ascending : entries.Ascending) (member : (name, value) ∈ entries) :
    find? name entries = some value := by
  induction entries with
  | nil => cases member
  | cons entry rest ih =>
    obtain ⟨key, old⟩ := entry
    obtain ⟨before, later⟩ := List.pairwise_cons.mp ascending
    rcases List.mem_cons.mp member with here | there
    · cases here; simp [find?]
    · have precedes := before _ there
      have different : name ≠ key := fun same => String.lt_irrefl _ (same ▸ precedes)
      simp [find?, different, ih later there]

/-! ### Order -/

theorem mem_put {name : String} {value : α} {entries : Entries α} {entry : String × α}
    (member : entry ∈ put name value entries) : entry = (name, value) ∨ entry ∈ entries := by
  induction entries with
  | nil => simpa [put] using member
  | cons head rest ih =>
    obtain ⟨key, old⟩ := head
    simp only [put] at member
    split at member
    · rcases List.mem_cons.mp member with here | there
      · exact Or.inl here
      · exact Or.inr (List.mem_cons_of_mem _ there)
    · split at member
      · exact (List.mem_cons.mp member)
      · rcases List.mem_cons.mp member with here | there
        · exact Or.inr (here ▸ List.mem_cons_self)
        · exact (ih there).imp id (List.mem_cons_of_mem _)

theorem ascending_put {entries : Entries α} (ascending : entries.Ascending) (name : String)
    (value : α) : (put name value entries).Ascending := by
  induction entries with
  | nil => exact List.pairwise_singleton _ _
  | cons head rest ih =>
    obtain ⟨key, old⟩ := head
    obtain ⟨before, later⟩ := List.pairwise_cons.mp ascending
    simp only [put]
    split
    · next same => subst same; exact List.pairwise_cons.mpr ⟨before, later⟩
    · next different =>
      split
      · next precedes =>
        refine List.pairwise_cons.mpr ⟨fun entry member => ?_, ascending⟩
        rcases List.mem_cons.mp member with here | there
        · subst here; exact precedes
        · exact String.lt_trans precedes (before _ there)
      · next notBefore =>
        refine List.pairwise_cons.mpr ⟨fun entry member => ?_, ih later⟩
        rcases mem_put member with here | there
        · subst here
          exact Decidable.byContradiction fun notAfter => different
            (String.le_antisymm (String.not_lt.mp notAfter) (String.not_lt.mp notBefore))
        · exact before _ there

theorem ascending_erase {entries : Entries α} (ascending : entries.Ascending) (name : String) :
    (erase name entries).Ascending :=
  List.Pairwise.filter _ ascending

/-- Ascending entries are determined by what is found in them. -/
theorem eq_of_find?_eq {first second : Entries α} (firstAscending : first.Ascending)
    (secondAscending : second.Ascending) (same : ∀ name, find? name first = find? name second) :
    first = second := by
  induction first generalizing second with
  | nil =>
    cases second with
    | nil => rfl
    | cons entry rest => have := same entry.1; simp [find?] at this
  | cons entry rest ih =>
    obtain ⟨key, value⟩ := entry
    obtain ⟨before, later⟩ := List.pairwise_cons.mp firstAscending
    cases second with
    | nil => have := same key; simp [find?] at this
    | cons entry' rest' =>
      obtain ⟨key', value'⟩ := entry'
      obtain ⟨before', later'⟩ := List.pairwise_cons.mp secondAscending
      have keys : key = key' := by
        refine Decidable.byContradiction fun different => ?_
        have found := same key
        have found' := same key'
        simp only [find?, if_true, different, Ne.symm different, if_false] at found found'
        have inside := before' _ (mem_of_find? found.symm)
        have inside' := before _ (mem_of_find? found')
        exact String.lt_irrefl _ (String.lt_trans inside inside')
      subst keys
      have here := same key
      simp only [find?, if_true, Option.some.injEq] at here
      subst here
      refine congrArg _ (ih later later' fun name => ?_)
      by_cases isKey : name = key
      · subst isKey
        have absent : ∀ {entries : Entries α}, (∀ entry ∈ entries, name < entry.1) →
            find? name entries = none := by
          intro entries above
          cases found : find? name entries with
          | none => rfl
          | some value => exact (String.lt_irrefl _ (above _ (mem_of_find? found))).elim
        rw [absent before, absent before']
      · have there := same name
        simpa [find?, isKey] using there

end Entries

/-- A table: named values with ascending names. -/
structure Table (α : Type u) where
  entries : Entries α
  ascending : entries.Ascending

namespace Table

variable {α : Type u}

def empty : Table α := ⟨[], List.Pairwise.nil⟩

instance : Inhabited (Table α) := ⟨empty⟩

/-- The value under a name. -/
def find? (table : Table α) (name : String) : Option α := table.entries.find? name

/-- Whether a name has a value. -/
def contains (table : Table α) (name : String) : Bool := (table.find? name).isSome

/-- Put a value under a name, replacing an earlier one. -/
def put (table : Table α) (name : String) (value : α) : Table α :=
  ⟨table.entries.put name value, Entries.ascending_put table.ascending name value⟩

/-- Put a value under a name that has none yet. -/
def putIfAbsent (table : Table α) (name : String) (value : α) : Table α :=
  if table.contains name then table else table.put name value

def erase (table : Table α) (name : String) : Table α :=
  ⟨table.entries.erase name, Entries.ascending_erase table.ascending name⟩

def names (table : Table α) : List String := table.entries.map (·.1)

/-- A table of pairs; of two pairs with one name the later one counts. -/
def ofList (pairs : List (String × α)) : Table α :=
  pairs.foldl (fun table pair => table.put pair.1 pair.2) empty

/-! ### What the operations do to the view by name -/

@[simp] theorem find?_empty (name : String) : (empty : Table α).find? name = none := rfl

theorem find?_put (table : Table α) (name other : String) (value : α) :
    (table.put other value).find? name = if name = other then some value else table.find? name :=
  Entries.find?_put name other value table.entries

theorem find?_erase (table : Table α) (name other : String) :
    (table.erase other).find? name = if name = other then none else table.find? name :=
  Entries.find?_erase name other table.entries

theorem find?_putIfAbsent (table : Table α) (name other : String) (value : α) :
    (table.putIfAbsent other value).find? name =
      if name = other then some ((table.find? name).getD value) else table.find? name := by
  unfold putIfAbsent contains
  cases found : table.find? other with
  | none =>
    rw [Option.isSome_none, if_neg Bool.false_ne_true, find?_put]
    split
    · next same => subst same; simp [found]
    · rfl
  | some held =>
    rw [Option.isSome_some, if_pos rfl]
    split
    · next same => subst same; simp [found]
    · rfl

/-- A table is determined by what is found in it. -/
theorem ext_find? {first second : Table α} (same : ∀ name, first.find? name = second.find? name) :
    first = second := by
  obtain ⟨entries, ascending⟩ := first
  obtain ⟨entries', ascending'⟩ := second
  have := Entries.eq_of_find?_eq ascending ascending' same
  subst this
  rfl

instance [DecidableEq α] : DecidableEq (Table α) := fun first second =>
  decidable_of_iff (first.entries = second.entries)
    ⟨fun same => by cases first; cases second; simp_all, fun same => same ▸ rfl⟩

end Table

/-! ### Sets of names -/

/-- A set of names, listed in ascending order. -/
abbrev NameSet := Table Unit

/-- The set of the listed names. -/
def NameSet.ofNames (listed : List String) : NameSet :=
  Table.ofList (listed.map fun name => (name, ()))

end Gatehouse
