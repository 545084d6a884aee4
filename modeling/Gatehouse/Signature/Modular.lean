/-
**Powers modulo a number.**

* `powMod`: a power, reduced after every step; `powMod_eq`: nothing else than the power, reduced.
-/

namespace Gatehouse.Signature

/-- A power modulo a number, for an exponent of at most so many binary digits. -/
def powBits (modulus base : Nat) : (bits : Nat) → (exponent : Nat) → Nat
  | 0, _ => 1 % modulus
  | bits + 1, exponent =>
    let half := powBits modulus base bits (exponent / 2)
    let square := half * half % modulus
    if exponent % 2 = 1 then square * base % modulus else square

def powMod (modulus base exponent : Nat) : Nat := powBits modulus base (exponent.log2 + 1) exponent

theorem powBits_eq (modulus base : Nat) {bits exponent : Nat} (fits : exponent < Nat.pow 2 bits) :
    powBits modulus base bits exponent = Nat.pow base exponent % modulus := by
  simp only [Nat.pow_eq] at fits ⊢
  induction bits generalizing exponent with
  | zero => simp at fits; simp [powBits, fits]
  | succ bits ih =>
    have half : exponent / 2 < 2 ^ bits := by
      rw [Nat.pow_succ] at fits
      exact Nat.div_lt_of_lt_mul (by rwa [Nat.mul_comm] at fits)
    have square : base ^ (exponent / 2) % modulus * (base ^ (exponent / 2) % modulus) % modulus =
        base ^ (exponent / 2 * 2) % modulus := by
      rw [← Nat.mul_mod, ← Nat.pow_two, ← Nat.pow_mul]
    simp only [powBits, ih half, square]
    split
    · next odd =>
      rw [Nat.mod_mul_mod, ← Nat.pow_succ]
      congr 2
      omega
    · next even =>
      congr 2
      omega

/-- The result is the power, reduced. -/
theorem powMod_eq (modulus base exponent : Nat) :
    powMod modulus base exponent = Nat.pow base exponent % modulus :=
  powBits_eq modulus base Nat.lt_log2_self

end Gatehouse.Signature
