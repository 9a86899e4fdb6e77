/-
# Theory.Serial -- serial numbers modulo 2^16

A counter that never stops, of which a machine keeps the low 16 bits.  As long as
two counts are less than 2^16 apart, the difference of what is kept is the
difference of the counts (`toNat_sub`), and so is its comparison.

`slot_ne` is about a table of `n` slots in which count `k` has slot `k % n`: counts
that lie in one window of `n` do not share a slot.
-/
import Mathlib.Algebra.Order.Ring.Nat
import Mathlib.Data.Nat.ModEq
import Mathlib.Tactic.Common

namespace ExanicCapture.Theory.Serial

set_option autoImplicit false

variable {a b : ℕ}

theorem toNat_sub (order : b ≤ a) (close : a - b < 2 ^ 16) :
    (UInt16.ofNat a - UInt16.ofNat b).toNat = a - b := by
  rw [← UInt16.ofNat_sub order, UInt16.toNat_ofNat', Nat.mod_eq_of_lt close]

theorem ofNat_succ (a : ℕ) : UInt16.ofNat a + 1 = UInt16.ofNat (a + 1) := by
  rw [UInt16.ofNat_add]
  rfl

/-- The low bits of the kept part are those of the count. -/
theorem toNat_and_mask {m : ℕ} (small : m ≤ 16) (a : ℕ) :
    (UInt16.ofNat a).toNat &&& (2 ^ m - 1) = a % 2 ^ m := by
  rw [Nat.and_two_pow_sub_one_eq_mod, UInt16.toNat_ofNat',
    Nat.mod_mod_of_dvd _ (pow_dvd_pow 2 small)]

theorem slot_ne {n : ℕ} (order : b < a) (window : a < b + n) : b % n ≠ a % n := by
  intro same
  have apart : n ∣ a - b := (Nat.modEq_iff_dvd' order.le).1 same
  have := Nat.le_of_dvd (by omega) apart
  omega

end ExanicCapture.Theory.Serial
