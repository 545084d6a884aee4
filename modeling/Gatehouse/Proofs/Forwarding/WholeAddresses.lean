/-
**Patterns that match whole addresses.**

The text of a pattern is set into a group between the tests for both ends before it is read. So it
matches whole addresses only, unless it closes that group itself: then the tests bind to the parts
of what it leaves, and a text that is no pattern by itself is accepted.

* `Forwarding.wholeText_eq_ok`: what stands between the tests for both ends;
* **`Forwarding.isInternal_iff_covers`**: which patterns are accepted, and what they match;
* `Forwarding.unbalanced_pattern`: a text that closes the group around it.
-/

import Gatehouse.Forwarding.Settings
import Gatehouse.Proofs.Pattern.Enclosed

namespace Gatehouse

namespace Forwarding

open Pattern

/-- **A text that does not close the group around it** is accepted only if it is a pattern, which
then stands between the tests for both ends. -/
theorem wholeText_eq_ok {pattern : String} {whole : Pattern}
    (balanced : parse pattern ≠ .error .groupNotOpen) (accepted : wholeText pattern = .ok whole) :
    ∃ found, parse pattern = .ok found ∧ whole = found.between := by
  have text : ("^(?:" ++ pattern ++ ")$").toList =
      '^' :: '(' :: '?' :: ':' :: (pattern.toList ++ [')', '$']) := by
    rw [String.toList_append, String.toList_append]
    rfl
  unfold wholeText at accepted
  cases parsed : parse ("^(?:" ++ pattern ++ ")$") with
  | error fault => rw [parsed] at accepted; exact nomatch accepted
  | ok found =>
    rw [parsed] at accepted
    cases accepted
    obtain ⟨piece, read, rfl⟩ := parse_eq_ok_iff.mp parsed
    rw [text] at read
    obtain stray | ⟨piece, alone, rfl⟩ := readPiece_enclosed read
    · exact (balanced (by rw [parse, stray]; rfl)).elim
    · exact ⟨piece.pattern, parse_eq_ok_iff.mpr ⟨piece, alone, rfl⟩, rfl⟩

/-- **Patterns match whole addresses only.** Unless a text has a parenthesis that closes nothing, it
is accepted as the pattern of internal proxies only if it is a pattern by itself, and then an address
is internal if and only if the pattern matches it from its first character to its last. -/
theorem isInternal_iff_covers {pattern : String} {forwarding : Forwarding}
    (balanced : parse pattern ≠ .error .groupNotOpen)
    (accepted : ofPatterns pattern none = .ok forwarding) :
    IsPattern pattern ∧
      ∀ address, forwarding.isInternal address = true ↔ Covers pattern address := by
  cases set : wholeText pattern with
  | error error => rw [ofPatterns, set] at accepted; exact nomatch accepted
  | ok whole =>
    obtain ⟨found, parsed, rfl⟩ := wholeText_eq_ok balanced set
    rw [ofPatterns, set] at accepted
    cases accepted
    refine ⟨⟨found, parsed⟩, fun address => ?_⟩
    refine (isMatch_between_iff (isOrdered_of_parse parsed)).trans
      ⟨fun covers => ⟨found, parsed, covers⟩, fun ⟨same, again, covers⟩ => ?_⟩
    exact Except.ok.inj (parsed.symm.trans again) ▸ covers

theorem exists_internal {pattern address : String}
    (found : (ofPatterns pattern none).toOption.any (·.isInternal address) = true) :
    ∃ forwarding, ofPatterns pattern none = .ok forwarding ∧
      forwarding.isInternal address = true := by
  cases accepted : ofPatterns pattern none with
  | error error => rw [accepted] at found; exact nomatch found
  | ok forwarding => rw [accepted] at found; exact ⟨forwarding, rfl, found⟩

/-- Two addresses, and a longer one that begins with the first. -/
theorem isInternal_iff_covers_pair :
    ∃ forwarding, ofPatterns "10\\.0\\.0\\.1|10\\.0\\.0\\.2" none = .ok forwarding ∧
      forwarding.isInternal "10.0.0.2" = true ∧ forwarding.isInternal "10.0.0.15" = false := by
  have found : (ofPatterns "10\\.0\\.0\\.1|10\\.0\\.0\\.2" none).toOption.any
      (·.isInternal "10.0.0.2") = true := by decide +kernel
  obtain ⟨forwarding, accepted, internal⟩ := exists_internal found
  obtain ⟨-, covers_iff⟩ := isInternal_iff_covers (by decide +kernel) accepted
  refine ⟨forwarding, accepted, internal, Bool.eq_false_iff.mpr fun longer => ?_⟩
  exact absurd ((covers_iff _).mp longer) (by decide +kernel)

/-- **A text that closes the group around it.** It is no pattern, but it is accepted, and an address
that only begins like one of the two is internal. -/
theorem unbalanced_pattern :
    ¬IsPattern "10\\.0\\.0\\.1)|(10\\.0\\.0\\.2" ∧
      ∃ forwarding, ofPatterns "10\\.0\\.0\\.1)|(10\\.0\\.0\\.2" none = .ok forwarding ∧
        forwarding.isInternal "10.0.0.15" = true :=
  ⟨by decide +kernel, exists_internal (by decide +kernel)⟩

end Forwarding

end Gatehouse
