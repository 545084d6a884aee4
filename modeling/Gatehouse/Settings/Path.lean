/-
**Dotted paths.**

A path names a place in a configuration tree. Since a key may itself contain dots, a path is cut in
several ways into a key and the path that follows.

* `cuts`: the ways, the longest key first;
* `below?_eq_some_iff`: when one path continues another.
-/

import Gatehouse.Text.Split

namespace Gatehouse.Path

/-- What stands before and after every dot, the first dot first. -/
def cutsFromLeft : List Char → List (List Char × List Char)
  | [] => []
  | c :: rest =>
    let later := (cutsFromLeft rest).map fun (before, after) => (c :: before, after)
    if c = '.' then ([], rest) :: later else later

/-- The ways to cut a path at a dot into a key and the path after it, the longest key first. -/
def cuts (path : String) : List (String × String) :=
  (cutsFromLeft path.toList).reverse.map fun (before, after) =>
    (String.ofList before, String.ofList after)

/-- The path of a key inside the object at a path; the empty path is the root. -/
def child (path key : String) : String := if path = "" then key else path ++ "." ++ key

/-- The path that leads from an ancestor to a descendant. -/
def below? (ancestor path : String) : Option String :=
  (Text.dropPrefix? (ancestor.toList ++ ['.']) path.toList).map String.ofList

theorem below?_eq_some_iff {ancestor path rest : String} :
    below? ancestor path = some rest ↔ path = ancestor ++ "." ++ rest := by
  unfold below?
  rw [Option.map_eq_some_iff]
  constructor
  · rintro ⟨chars, found, rfl⟩
    rw [Text.dropPrefix?_eq_some_iff] at found
    apply String.toList_inj.mp
    simp [found]
  · rintro rfl
    exact ⟨rest.toList, Text.dropPrefix?_eq_some_iff.mpr (by simp), String.ofList_toList⟩

theorem mem_cutsFromLeft_iff {path before after : List Char} :
    (before, after) ∈ cutsFromLeft path ↔ path = before ++ '.' :: after := by
  induction path generalizing before with
  | nil => simp [cutsFromLeft]
  | cons c rest ih =>
    have later : (before, after) ∈ (cutsFromLeft rest).map (fun (before, after) =>
        (c :: before, after)) ↔ ∃ tail, before = c :: tail ∧ rest = tail ++ '.' :: after := by
      simp only [List.mem_map, Prod.mk.injEq, Prod.exists]
      constructor
      · rintro ⟨tail, _, member, rfl, rfl⟩; exact ⟨tail, rfl, ih.mp member⟩
      · rintro ⟨tail, rfl, whole⟩; exact ⟨tail, after, ih.mpr whole, rfl, rfl⟩
    simp only [cutsFromLeft]
    cases before with
    | nil =>
      split
      · next dot => subst dot; simp [later]; exact eq_comm
      · next other => simp [later, other]
    | cons b before =>
      have tails : (∃ tail, b :: before = c :: tail ∧ rest = tail ++ '.' :: after) ↔
          c :: rest = b :: before ++ '.' :: after := by
        simp only [List.cons.injEq, List.cons_append]
        constructor
        · rintro ⟨tail, ⟨rfl, rfl⟩, whole⟩; exact ⟨rfl, whole⟩
        · rintro ⟨rfl, whole⟩; exact ⟨before, ⟨rfl, rfl⟩, whole⟩
      split
      · rw [List.mem_cons, later, tails]; simp
      · rw [later, tails]

end Gatehouse.Path
