/-
**Values in any spelling of a document.**

Moving children up takes objects apart, but it only renames the ways to all other values. So a dotted
path finds in every spelling what stands there in the original document, whether the whole path is
looked up at once or one part of it below another.

A list is one value: no path leads into it. Where children were moved up inside a list, the list is
found as it is spelled there.

* `Tree.Flattens`: a step that moves a child up and leaves all lists as they are;
* `Tree.Keeps`: every value that is no object stands at the same segments again, up to a relation;
* `Tree.Flattens.keeps`, `Tree.Lifts.keeps`: one step; `Tree.Keeps.run`: any number of them;
* **`Settings.get?_of_spelling`**: reading a path in a spelling of a plain document.
-/

import Gatehouse.Proofs.Settings.Readings

namespace Gatehouse

namespace Tree

open Gatehouse.Path (segments segmentsOf Proper)
open Relation (ReflTransGen)

/-! ### Steps outside lists -/

/-- One child of an object is moved up, anywhere in a document but inside a list. -/
inductive Flattens : Tree → Tree → Prop
  | here {entries children : Entries Tree} {key name : String} {value : Tree}
      (outer : entries.find? key = some (.object children))
      (inner : children.find? name = some value) :
      Flattens (.object entries) (.object (lifted entries children key name value))
  | inside {entries : Entries Tree} {key : String} {value value' : Tree}
      (found : entries.find? key = some value) (flattens : Flattens value value') :
      Flattens (.object entries) (.object (entries.put key value'))

theorem Flattens.lifts {nested collapsed : Tree} (flattens : Flattens nested collapsed) :
    Lifts nested collapsed := by
  induction flattens with
  | here outer inner => exact .here outer inner
  | inside found _ ih => exact .inside found ih

/-- A step inside the only value of an object. -/
theorem Flattens.only {key : String} {value value' : Tree} (flattens : Flattens value value') :
    Flattens (.object [(key, value)]) (.object [(key, value')]) := by
  have found : Entries.find? key [(key, value)] = some value := by rw [Entries.find?, if_pos rfl]
  have step := Flattens.inside found flattens
  rwa [Entries.put, if_pos rfl] at step

/-! ### Values that are kept -/

/-- Every value that is no object stands at the same segments again, as a related value. -/
def Keeps (related : Tree → Tree → Prop) (nested collapsed : Tree) : Prop :=
  ∀ {pieces value}, nested.At pieces value → value.isObject = false →
    ∃ spelled, related value spelled ∧ collapsed.At pieces spelled

section Keeps

variable {related : Tree → Tree → Prop} (same : ∀ value, related value value)

include same

/-- Moving up a child of the root of a clear tree keeps the other values as they are. -/
theorem keeps_here {entries children : Entries Tree} {key name : String} {value : Tree}
    (outer : entries.find? key = some (.object children)) (inner : children.find? name = some value)
    (clear : (Tree.object entries).Clear) :
    Keeps related (.object entries) (.object (lifted entries children key name value)) := by
  rintro _ leaf ⟨keys, rfl, followed⟩ isLeaf
  obtain ⟨others, rfl, reached⟩ :=
    follow_lifted outer inner clear followed (members_of_not_object isLeaf)
  exact ⟨leaf, same leaf, others, (segmentsOf_splitKey others).symm, reached⟩

/-- What a change of one value keeps is kept by the object around it. -/
theorem keeps_inside {entries : Entries Tree} {key : String} {value value' : Tree}
    (found : entries.find? key = some value) (keeps : Keeps related value value') :
    Keeps related (.object entries) (.object (entries.put key value')) := by
  rintro _ leaf ⟨keys, rfl, followed⟩ isLeaf
  cases keys with
  | nil =>
    cases followed
    cases isLeaf
  | cons first rest =>
    by_cases here : first = key
    · subst here
      rw [follow_cons, members, found, Option.bind_some] at followed
      obtain ⟨spelled, relates, others, pieces, reached⟩ := keeps ⟨rest, rfl, followed⟩ isLeaf
      refine ⟨spelled, relates, first :: others, ?_, ?_⟩
      · rw [Path.segmentsOf_cons, Path.segmentsOf_cons, pieces]
      · rwa [follow_put_cons, if_pos rfl]
    · exact ⟨leaf, same leaf, first :: rest, rfl, by rwa [follow_put_cons, if_neg here]⟩

end Keeps

/-- A step outside lists keeps every value that is no object. -/
theorem Flattens.keeps {nested collapsed : Tree} (flattens : Flattens nested collapsed)
    (clear : nested.Clear) : Keeps Eq nested collapsed := by
  induction flattens with
  | here outer inner => exact keeps_here (fun _ => rfl) outer inner clear
  | inside found _ ih => exact keeps_inside (fun _ => rfl) found (ih (clear.inside found))

/-- A step inside a list keeps the list up to this step. -/
theorem Lifts.keeps {nested collapsed : Tree} (lifts : Lifts nested collapsed)
    (clear : nested.Clear) : Keeps (ReflTransGen Lifts) nested collapsed := by
  induction lifts with
  | here outer inner => exact keeps_here (fun _ => .refl) outer inner clear
  | inside found _ ih => exact keeps_inside (fun _ => .refl) found (ih (clear.inside found))
  | @item before after value value' lifts =>
    rintro _ leaf ⟨keys, rfl, followed⟩ isLeaf
    obtain rfl := follow_of_no_members rfl followed
    cases followed
    exact ⟨_, .single (.item lifts), [], rfl, rfl⟩

/-- The steps from a value that is no object never make it one. -/
theorem isObject_of_lifts {value spelled : Tree} (steps : ReflTransGen Lifts value spelled) :
    value.isObject = spelled.isObject := by
  induction steps with
  | refl => rfl
  | tail _ step ih => exact ih.trans step.alike.isObject_eq

/-- Any number of steps keeps what each of them keeps. -/
theorem Keeps.run {related step : Tree → Tree → Prop} (same : ∀ value, related value value)
    (trans : ∀ {first second third}, related first second → related second third →
      related first third)
    (leaves : ∀ {value spelled}, related value spelled → value.isObject = spelled.isObject)
    (lifts : ∀ {nested collapsed}, step nested collapsed → Lifts nested collapsed)
    (keeps : ∀ {nested collapsed}, step nested collapsed → nested.Clear →
      Keeps related nested collapsed)
    {nested collapsed : Tree} (steps : ReflTransGen step nested collapsed) (clear : nested.Clear) :
    Keeps related nested collapsed := by
  induction steps with
  | refl => exact fun {_ value} stands _ => ⟨value, same value, stands⟩
  | tail before last ih =>
    intro pieces value stands isLeaf
    obtain ⟨between, relates, there⟩ := ih stands isLeaf
    have betweenClear := (exists_restores (ReflTransGen.mono (fun _ _ => lifts) _ _ before) clear).1
    obtain ⟨spelled, relates', found⟩ :=
      keeps last betweenClear there ((leaves relates).symm.trans isLeaf)
    exact ⟨spelled, trans relates relates', found⟩

end Tree

/-! ### Reading a spelling -/

namespace Settings

open Gatehouse.Path (segments segmentsOf Proper)
open Relation (ReflTransGen)

/-- What stands at a path is found by looking up the path, and by looking up the rest of it below any
beginning. -/
theorem get?_of_at {settings : Settings} (clear : settings.toTree.Clear) {path : String}
    {value : Tree} (stands : settings.toTree.At (segments path) value) :
    settings.get? path = some value ∧ ∀ above below, path = above ++ "." ++ below →
      (settings.under above).get? below = some value := by
  have proper : Proper path := by
    obtain ⟨keys, spelled, followed⟩ := stands
    rw [Proper, ← spelled]
    exact clear.proper (by rw [followed]; rfl)
  have found := (get?_eq_some_iff clear proper).mpr stands
  refine ⟨found, ?_⟩
  rintro above below rfl
  obtain ⟨properAbove, properBelow⟩ := Path.proper_append_iff.mp proper
  rw [get?_under clear properAbove properBelow, found]

/-- **Reading does not depend on the spelling.** Take a plain document and any document obtained from
it by moving children up. A path at which a value other than an object stands in the plain document
is found in the other one, also below every beginning of it. The value found there is the same, but
for the steps that were taken inside it if it is a list; if no step was taken inside a list, it is
the value itself. A path at which nothing stands in the plain document finds nothing in either. -/
theorem get?_of_spelling {nested collapsed : Settings} (plain : nested.toTree.isPlain = true)
    (steps : ReflTransGen Tree.Lifts nested.toTree collapsed.toTree) :
    (∀ path value, nested.toTree.At (segments path) value → value.isObject = false →
      ∃ spelled, ReflTransGen Tree.Lifts value spelled ∧
        (ReflTransGen Tree.Flattens nested.toTree collapsed.toTree → spelled = value) ∧
        collapsed.get? path = some spelled ∧
        ∀ above below, path = above ++ "." ++ below →
          (collapsed.under above).get? below = some spelled) ∧
    ∀ path, Proper path → (∀ value, ¬ nested.toTree.At (segments path) value) →
      nested.get? path = none ∧ collapsed.get? path = none := by
  have clear := Tree.clear_of_plain nested.ordered_toTree plain
  obtain ⟨clearCollapsed, restore, restores⟩ := Tree.exists_restores steps clear
  refine ⟨fun path value stands isLeaf => ?_, fun path proper nothing => ⟨?_, ?_⟩⟩
  · obtain ⟨spelled, related, there⟩ := Tree.Keeps.run (fun _ => .refl) ReflTransGen.trans
      Tree.isObject_of_lifts id Tree.Lifts.keeps steps clear stands isLeaf
    refine ⟨spelled, related, fun outside => ?_, get?_of_at clearCollapsed there⟩
    obtain ⟨_, rfl, itself⟩ := Tree.Keeps.run (fun _ => rfl) Eq.trans (congrArg Tree.isObject)
      Tree.Flattens.lifts Tree.Flattens.keeps outside clear stands isLeaf
    exact clearCollapsed.at_unique there itself
  · rw [Option.eq_none_iff_forall_ne_some]
    intro value found
    exact nothing value ((get?_eq_some_iff clear proper).mp found)
  · rw [Option.eq_none_iff_forall_ne_some]
    intro value found
    obtain ⟨original, stands, _⟩ :=
      restores.at_back ((get?_eq_some_iff clearCollapsed proper).mp found)
    exact nothing original stands

/-- A crew below the ship it belongs to. -/
def nestedCrew : Settings := .ofTree (.object [("ship", .object [("crew", .object
  [("captain", .text "kirk"), ("officers", .list [.text "spock", .text "scotty"])]),
  ("speed", .int 9)])])

/-- The same crew in a mixed spelling. -/
def mixedCrew : Settings := .ofTree (.object [("ship", .object [("speed", .int 9)]),
  ("ship.crew", .object [("officers", .list [.text "spock", .text "scotty"])]),
  ("ship.crew.captain", .text "kirk")])

theorem get?_mixedCrew :
    nestedCrew.toTree.isPlain = true ∧
    ReflTransGen Tree.Flattens nestedCrew.toTree mixedCrew.toTree ∧
    nestedCrew.toTree.At (segments "ship.crew.captain") (.text "kirk") ∧
    mixedCrew.get? "ship.crew.captain" = some (.text "kirk") ∧
    (mixedCrew.under "ship").get? "crew.captain" = some (.text "kirk") ∧
    (mixedCrew.under "ship.crew").get? "captain" = some (.text "kirk") ∧
    nestedCrew.get? "ship.captain" = none ∧ mixedCrew.get? "ship.captain" = none := by
  have plain : nestedCrew.toTree.isPlain = true := rfl
  let officers : Tree := .list [.text "spock", .text "scotty"]
  have first : Tree.Flattens
      (.object [("crew", .object [("captain", .text "kirk"), ("officers", officers)]),
        ("speed", .int 9)])
      (.object [("crew", .object [("officers", officers)]), ("crew.captain", .text "kirk"),
        ("speed", .int 9)]) :=
    @Tree.Flattens.here _ [("captain", .text "kirk"), ("officers", officers)] "crew" "captain" _
      rfl rfl
  have second : Tree.Flattens
      (.object [("ship", .object [("crew", .object [("officers", officers)]),
        ("crew.captain", .text "kirk"), ("speed", .int 9)])])
      (.object [("ship", .object [("crew", .object [("officers", officers)]), ("speed", .int 9)]),
        ("ship.crew.captain", .text "kirk")]) :=
    @Tree.Flattens.here _ [("crew", .object [("officers", officers)]),
      ("crew.captain", .text "kirk"), ("speed", .int 9)] "ship" "crew.captain" _ rfl rfl
  have third : Tree.Flattens
      (.object [("ship", .object [("crew", .object [("officers", officers)]), ("speed", .int 9)]),
        ("ship.crew.captain", .text "kirk")])
      (.object [("ship", .object [("speed", .int 9)]), ("ship.crew", .object [("officers", officers)]),
        ("ship.crew.captain", .text "kirk")]) :=
    @Tree.Flattens.here _ [("crew", .object [("officers", officers)]), ("speed", .int 9)] "ship"
      "crew" _ rfl rfl
  have outside : ReflTransGen Tree.Flattens nestedCrew.toTree mixedCrew.toTree :=
    .tail (.tail (.single first.only) second) third
  have reading := get?_of_spelling plain
    (ReflTransGen.mono (fun _ _ => Tree.Flattens.lifts) _ _ outside)
  have captain : nestedCrew.toTree.At (segments "ship.crew.captain") (.text "kirk") :=
    ⟨["ship", "crew", "captain"], by decide, rfl⟩
  obtain ⟨spelled, _, same, found, below⟩ := reading.1 "ship.crew.captain" _ captain rfl
  obtain rfl := same outside
  have nowhere : ∀ value, ¬ nestedCrew.toTree.At (segments "ship.captain") value := by
    intro value stands
    have found := (get?_of_at (Tree.clear_of_plain nestedCrew.ordered_toTree plain) stands).1
    have absent : nestedCrew.get? "ship.captain" = none := by decide +kernel
    rw [absent] at found
    cases found
  have missing := reading.2 "ship.captain" (by decide) nowhere
  exact ⟨plain, outside, captain, found, below "ship" "crew.captain" (by decide),
    below "ship.crew" "captain" (by decide), missing.1, missing.2⟩

end Settings

end Gatehouse
