/-
**Authentication domains and chains.**

A domain pairs an extractor with a backend. A chain is a list of domains in the order in which they
are tried.

* `Domain.compare`: domains are ordered by their order number and then by name;
* `Chain.ofDomains`: the chain of any domains, sorted;
* `Chain.sorted`: every chain is sorted.
-/

import Gatehouse.Access.Mechanism

namespace Gatehouse

/-- An extractor and a backend under a name. -/
structure Domain (δ : Type) where
  name : String
  order : Int
  /-- Whether a request without credentials is asked for them instead of being passed on. -/
  challenges : Bool
  extractor : Extractor
  backend : Backend δ

namespace Domain

variable {δ : Type}

/-- The order of domains. -/
def compare (first second : Domain δ) : Ordering :=
  (Ord.compare first.order second.order).then (Ord.compare first.name second.name)

/-- Whether a domain may stand before another one. -/
def isAtMost (first second : Domain δ) : Bool :=
  first.order < second.order || (first.order = second.order && first.name ≤ second.name)

theorem isAtMost_total (first second : Domain δ) :
    (isAtMost first second || isAtMost second first) = true := by
  simp only [isAtMost, Bool.or_eq_true, Bool.and_eq_true, decide_eq_true_eq]
  rcases Int.lt_trichotomy first.order second.order with below | same | above
  · exact Or.inl (Or.inl below)
  · rcases String.le_total first.name second.name with before | after
    · exact Or.inl (Or.inr ⟨same, before⟩)
    · exact Or.inr (Or.inr ⟨same.symm, after⟩)
  · exact Or.inr (Or.inl above)

theorem isAtMost_trans (first second third : Domain δ) (left : isAtMost first second = true)
    (right : isAtMost second third = true) : isAtMost first third = true := by
  simp only [isAtMost, Bool.or_eq_true, Bool.and_eq_true, decide_eq_true_eq] at *
  rcases left with below | ⟨same, before⟩ <;> rcases right with below' | ⟨same', before'⟩
  · exact Or.inl (by omega)
  · exact Or.inl (by omega)
  · exact Or.inl (by omega)
  · exact Or.inr ⟨same.trans same', String.le_trans before before'⟩

/-- The domain for diagnostics. -/
def describe (domain : Domain δ) : String :=
  let challenges := if domain.challenges then "true" else "false"
  "AuthDomain \x7b name: " ++ Text.quote domain.name ++ ", order: " ++ toString domain.order ++
    ", challenge: " ++ challenges ++ ", extractor: " ++ Text.quote domain.extractor.typeName ++
    ", backend: " ++ Text.quote domain.backend.typeName ++ " \x7d"

end Domain

/-- Domains in the order in which they are tried, and whether a request that none of them accepts is
granted the anonymous identity. -/
structure Chain (δ : Type) where
  domains : List (Domain δ)
  anonymous : Bool
  sorted : domains.Pairwise fun first second => first.isAtMost second = true

namespace Chain

variable {δ : Type}

/-- The chain without domains. -/
def empty : Chain δ := ⟨[], false, .nil⟩

instance : Inhabited (Chain δ) := ⟨empty⟩

/-- The chain of the given domains. -/
def ofDomains (domains : List (Domain δ)) (anonymous : Bool) : Chain δ where
  domains := domains.mergeSort Domain.isAtMost
  anonymous := anonymous
  sorted := List.pairwise_mergeSort Domain.isAtMost_trans Domain.isAtMost_total domains

/-- The names of the domains, in the order in which they are tried. -/
def names (chain : Chain δ) : List String := chain.domains.map (·.name)

end Chain

end Gatehouse
