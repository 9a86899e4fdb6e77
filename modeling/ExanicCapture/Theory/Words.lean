/-
# Theory.Words -- the bytes of a word

A 32-bit register may hold four bytes that mean different things.  `byteAt` reads one
of them; the lemmas say what the operations on whole words, with which a byte is
cleared, set, or moved to its place, do to each.
-/
import Mathlib.Data.Fin.VecNotation
import Mathlib.Data.UInt
import Mathlib.Tactic.FinCases

namespace ExanicCapture.Theory

set_option autoImplicit false

/-- Byte `k` of the word, from the least significant one. -/
def byteAt (w : UInt32) (k : ℕ) : UInt8 := (w >>> UInt32.ofNat (8 * k)).toUInt8

/-- The byte, moved up by `k` places. -/
def placed (b : UInt8) (k : ℕ) : UInt32 := b.toUInt32 <<< UInt32.ofNat (8 * k)

theorem byteAt_or (v w : UInt32) (k : ℕ) : byteAt (v ||| w) k = byteAt v k ||| byteAt w k := by
  rw [byteAt, UInt32.shiftRight_or, UInt32.toUInt8_or]
  rfl

theorem byteAt_and (v w : UInt32) (k : ℕ) : byteAt (v &&& w) k = byteAt v k &&& byteAt w k := by
  rw [byteAt, UInt32.shiftRight_and, UInt32.toUInt8_and]
  rfl

/-- Bit by bit. -/
theorem testBit_byteAt (w : UInt32) {k : ℕ} (inside : k < 4) (i : ℕ) :
    (byteAt w k).toNat.testBit i = (decide (i < 8) && w.toNat.testBit (8 * k + i)) := by
  have shift : (8 * k % 2 ^ 32) % 32 = 8 * k := by omega
  rw [byteAt, UInt32.toNat_toUInt8, UInt32.toNat_shiftRight, UInt32.toNat_ofNat', shift,
    Nat.testBit_mod_two_pow, Nat.testBit_shiftRight]

theorem byteAt_placed (b : UInt8) {j k : ℕ} (hj : j < 4) (hk : k < 4) :
    byteAt (placed b j) k = if j = k then b else 0 := by
  have shift : (8 * j % 2 ^ 32) % 32 = 8 * j := by omega
  have beyond : ∀ i, 8 ≤ i → b.toNat.testBit i = false := fun i high =>
    Nat.testBit_lt_two_pow (lt_of_lt_of_le b.toNat_lt (Nat.pow_le_pow_right (by decide) high))
  apply UInt8.toNat_inj.1
  apply Nat.eq_of_testBit_eq
  intro i
  rw [testBit_byteAt _ hk, placed, UInt32.toNat_shiftLeft, UInt32.toNat_ofNat', shift,
    Nat.testBit_mod_two_pow, Nat.testBit_shiftLeft, UInt8.toNat_toUInt32]
  by_cases low : i < 8
  · split
    next same =>
      subst same
      simp [low, show 8 * j + i < 32 by omega]
    next other =>
      rcases Nat.lt_or_gt_of_ne other with above | below
      · simp [beyond (8 * k + i - 8 * j) (by omega)]
      · simp [show ¬ 8 * j ≤ 8 * k + i by omega]
  · rw [decide_eq_false low, Bool.false_and]
    split
    next => exact (beyond i (by omega)).symm
    next => simp

theorem byteAt_not (w : UInt32) {k : ℕ} (inside : k < 4) : byteAt (~~~ w) k = ~~~ byteAt w k := by
  apply UInt8.toNat_inj.1
  apply Nat.eq_of_testBit_eq
  intro i
  have word : (~~~ w).toNat = 2 ^ 32 - (w.toNat + 1) := by rw [UInt32.toNat_not, UInt32.size]; omega
  have byte : (~~~ byteAt w k).toNat = 2 ^ 8 - ((byteAt w k).toNat + 1) := by
    rw [UInt8.toNat_not, UInt8.size]; omega
  rw [testBit_byteAt _ inside, word, byte, Nat.testBit_two_pow_sub_succ w.toNat_lt,
    Nat.testBit_two_pow_sub_succ (byteAt w k).toNat_lt, testBit_byteAt _ inside]
  by_cases low : i < 8
  · simp [low, show 8 * k + i < 32 by omega]
  · simp [low]

/-- A byte is cleared, and the others stay. -/
theorem byteAt_clear (w : UInt32) {j k : ℕ} (hj : j < 4) (hk : k < 4) :
    byteAt (w &&& ~~~ placed 0xFF j) k = if j = k then 0 else byteAt w k := by
  rw [byteAt_and, byteAt_not _ hk, byteAt_placed _ hj hk]
  split
  next => exact UInt8.and_zero
  next => exact UInt8.and_neg_one

/-- A byte is set, and the others stay. -/
theorem byteAt_set (w : UInt32) (b : UInt8) {j k : ℕ} (hj : j < 4) (hk : k < 4) :
    byteAt (w ||| placed b j) k = if j = k then byteAt w k ||| b else byteAt w k := by
  rw [byteAt_or, byteAt_placed _ hj hk]
  split
  next => rfl
  next => exact UInt8.or_zero

/-- Four bytes make a word. -/
theorem byteAt_pack (a b c d : UInt8) (k : Fin 4) :
    byteAt (placed a 0 ||| placed b 1 ||| placed c 2 ||| placed d 3) k = ![a, b, c, d] k := by
  have inside := k.isLt
  simp only [byteAt_or, byteAt_placed _ (show 0 < 4 by decide) inside,
    byteAt_placed _ (show 1 < 4 by decide) inside, byteAt_placed _ (show 2 < 4 by decide) inside,
    byteAt_placed _ (show 3 < 4 by decide) inside]
  fin_cases k <;> simp

end ExanicCapture.Theory
