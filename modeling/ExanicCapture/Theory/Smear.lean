/-
# Theory.Smear -- copying the highest bit downwards

Or-ing a number with itself, shifted right by 1, 2, 4, 8 and 16, sets every bit
below its highest one.  `Covers w n m` says that `m` has each bit of `n` and the
`w - 1` below it; one step with a shift of at most `w` adds the shift to the width
(`Covers.step`).  Once the width reaches the highest bit, all bits below it are set
(`Covers.full`).
-/
import Mathlib.Algebra.Order.Ring.Nat
import Mathlib.Tactic.Common

namespace ExanicCapture.Theory

set_option autoImplicit false

/-- Bit `j` of `m` is set when one of the bits `j` to `j + w - 1` of `n` is. -/
def Covers (w n m : ℕ) : Prop :=
  ∀ j, m.testBit j = true ↔ ∃ i < w, n.testBit (j + i) = true

namespace Covers

variable {w n m s : ℕ}

theorem refl (n : ℕ) : Covers 1 n n := by
  intro j
  constructor
  · intro set
    exact ⟨0, Nat.one_pos, set⟩
  · rintro ⟨i, inside, set⟩
    obtain rfl : i = 0 := by omega
    exact set

theorem step (covers : Covers w n m) (short : s ≤ w) : Covers (w + s) n (m ||| m >>> s) := by
  intro j
  rw [Nat.testBit_or, Nat.testBit_shiftRight, Bool.or_eq_true, covers j, covers (s + j)]
  constructor
  · rintro (⟨i, inside, set⟩ | ⟨i, inside, set⟩)
    · exact ⟨i, by omega, set⟩
    · exact ⟨s + i, by omega, by rwa [← Nat.add_assoc, Nat.add_comm j s]⟩
  · rintro ⟨i, inside, set⟩
    rcases Nat.lt_or_ge i w with low | high
    · exact Or.inl ⟨i, low, set⟩
    · refine Or.inr ⟨i - s, by omega, ?_⟩
      rwa [show s + j + (i - s) = j + i by omega]

theorem full (covers : Covers w n m) (nonzero : n ≠ 0) (wide : n < 2 ^ w) :
    m = 2 ^ (n.log2 + 1) - 1 := by
  apply Nat.eq_of_testBit_eq
  intro j
  rw [Nat.testBit_two_pow_sub_one, Bool.eq_iff_iff, covers j, decide_eq_true_iff]
  have high : n.log2 < w := (Nat.log2_lt nonzero).2 wide
  constructor
  · rintro ⟨i, -, set⟩
    have := (Nat.le_log2 nonzero).2 (Nat.ge_two_pow_of_testBit set)
    omega
  · intro below
    refine ⟨n.log2 - j, by omega, ?_⟩
    rw [show j + (n.log2 - j) = n.log2 by omega]
    exact Nat.testBit_log2 nonzero

end Covers

end ExanicCapture.Theory
