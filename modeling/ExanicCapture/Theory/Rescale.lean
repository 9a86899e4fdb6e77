/-
# Theory.Rescale -- counts of ticks in other units

A clock counts `h` ticks a second.  Of a count `t`, `t / h` are whole seconds and
`t % h * p / h` are the `p`-th parts of a second in the rest, both rounded down.

* `mul_div_split`: the rest can be scaled without ever forming `a * p`, by scaling
  with the quotient and the remainder of `p / h` apart.
* `seconds_add_parts`: rounding to fine parts first and to coarse ones afterwards
  loses nothing against rounding once.
* `parts_back`: how many ticks a count in parts falls short of the count.
* `parts_mono`: seconds and parts together are ordered as the counts are.
* `near_bmod`: a count is known from its low bits and any estimate that is less
  than half a turn of them away.
-/
import Mathlib.Algebra.Order.Group.Int
import Mathlib.Algebra.Order.Ring.Nat
import Mathlib.Tactic.Linarith
import Mathlib.Tactic.Ring

namespace ExanicCapture.Theory.Rescale

set_option autoImplicit false

variable {h : ℕ}

/-- Scaling by `p / h` and `p % h` apart is scaling by `p`. -/
theorem mul_div_split (positive : 0 < h) (a p : ℕ) :
    a * (p / h) + a * (p % h) / h = a * p / h := by
  have whole : a * p = a * (p % h) + h * (a * (p / h)) := by
    calc a * p = a * (p % h + h * (p / h)) := by rw [Nat.mod_add_div]
      _ = a * (p % h) + h * (a * (p / h)) := by ring
  rw [whole, Nat.add_mul_div_left _ _ positive, Nat.add_comm]

/-- The parts of a second are fewer than a whole one has. -/
theorem parts_lt (positive : 0 < h) {p : ℕ} (some : 0 < p) (t : ℕ) : t % h * p / h < p := by
  rw [Nat.div_lt_iff_lt_mul positive, Nat.mul_comm p]
  exact Nat.mul_lt_mul_of_pos_right (Nat.mod_lt t positive) some

/-- Parts of parts are parts. -/
theorem parts_coarser (a u : ℕ) {k : ℕ} (split : 0 < k) : a * (u * k) / h / k = a * u / h := by
  rw [Nat.div_div_eq_div_mul, ← Nat.mul_assoc, Nat.mul_div_mul_right _ _ split]

/-- Seconds and parts together are the count in parts, rounded down once. -/
theorem seconds_add_parts (positive : 0 < h) (t u : ℕ) :
    t / h * u + t % h * u / h = t * u / h := by
  have whole : t * u = t % h * u + h * (t / h * u) := by
    calc t * u = (t % h + h * (t / h)) * u := by rw [Nat.mod_add_div]
      _ = t % h * u + h * (t / h * u) := by ring
  rw [whole, Nat.add_mul_div_left _ _ positive, Nat.add_comm]

/-- A count in parts, turned back into ticks, has lost what the parts have left over. -/
theorem parts_back {u : ℕ} (some : 0 < u) (t : ℕ) :
    t * u / h * h / u = t - (t * u % h + (u - 1)) / u := by
  have whole : t * u / h * h = u * t - t * u % h := by
    have := Nat.div_add_mod (t * u) h
    rw [Nat.mul_comm u t, Nat.mul_comm (t * u / h) h]
    omega
  have inside : t * u % h ≤ u * t := (Nat.mod_le _ _).trans (Nat.mul_comm t u).le
  rw [whole]
  generalize t * u % h = r at inside
  cases r with
  | zero => rw [Nat.sub_zero, Nat.mul_div_cancel_left _ some, Nat.zero_add,
      Nat.div_eq_of_lt (Nat.sub_lt some Nat.one_pos), Nat.sub_zero]
  | succ x =>
      have ceiling : x + 1 + (u - 1) = x + u := by omega
      rw [ceiling, Nat.add_div_right _ some, Nat.mul_sub_div _ _ _ inside]

/-- The order of seconds and parts is the order of the counts. -/
theorem parts_mono {s t : ℕ} (order : s ≤ t) (p : ℕ) :
    s / h < t / h ∨ s / h = t / h ∧ s % h * p / h ≤ t % h * p / h := by
  rcases Nat.lt_or_eq_of_le (Nat.div_le_div_right (c := h) order) with earlier | same
  · exact Or.inl earlier
  · refine Or.inr ⟨same, Nat.div_le_div_right (Nat.mul_le_mul_right p ?_)⟩
    have parts := Nat.div_add_mod s h
    have parts' := Nat.div_add_mod t h
    rw [same] at parts
    omega

/-! ## A count from its low bits -/

/-- An estimate less than half a turn away and the low bits give the count. -/
theorem near_bmod {m : ℕ} {t e : ℤ} (low : -(m : ℤ) ≤ 2 * (t - e)) (high : 2 * (t - e) < m) :
    e + (t % m - e).bmod m = t := by
  have turn : (t % m - e).bmod m = (t - e).bmod m := by
    rw [Int.emod_sub_bmod]
  rw [turn, Int.bmod_eq_of_le_mul_two (by omega) (by omega)]
  omega

end ExanicCapture.Theory.Rescale
