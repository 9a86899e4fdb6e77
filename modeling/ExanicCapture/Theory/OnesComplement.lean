/-
# Theory.OnesComplement -- sums with end-around carry

In ones' complement arithmetic of `w` bits, `0` and `2^w - 1` are apart, and every
other number stands for its residue modulo `2^w - 1`.  `Alike m a b` says that `a`
and `b` stand for the same number: they agree modulo `m`, and one is zero only if
the other is.  Adding a carry back at the low end does not change what a sum stands
for (`alike_fold`), so a sum may be folded at any time and to any width whose
modulus divides the other (`Alike.of_dvd`).  Within `m` there is one number of each
kind (`Alike.eq_of_le`).

`wordSum` is the sum of a block's 16-bit words.  Loading the block in larger words
gives a number alike (`alike_littleValue`).
-/
import ExanicCapture.Theory.ByteOrder
import Mathlib.Data.Nat.ModEq

namespace ExanicCapture.Theory

set_option autoImplicit false

/-- `a` and `b` stand for the same ones' complement number. -/
structure Alike (m a b : ℕ) : Prop where
  modEq : a ≡ b [MOD m]
  zero_iff : a = 0 ↔ b = 0

namespace Alike

variable {m a b c d : ℕ}

theorem refl (m a : ℕ) : Alike m a a := ⟨rfl, Iff.rfl⟩

theorem symm (alike : Alike m a b) : Alike m b a := ⟨alike.modEq.symm, alike.zero_iff.symm⟩

theorem trans (first : Alike m a b) (second : Alike m b c) : Alike m a c :=
  ⟨first.modEq.trans second.modEq, first.zero_iff.trans second.zero_iff⟩

theorem add (left : Alike m a b) (right : Alike m c d) : Alike m (a + c) (b + d) := by
  refine ⟨left.modEq.add right.modEq, ?_⟩
  rw [Nat.add_eq_zero_iff, Nat.add_eq_zero_iff, left.zero_iff, right.zero_iff]

theorem of_dvd {n : ℕ} (alike : Alike n a b) (divides : m ∣ n) : Alike m a b :=
  ⟨alike.modEq.of_dvd divides, alike.zero_iff⟩

/-- Up to `m` itself, alike is equal. -/
theorem eq_of_le (alike : Alike m a b) (left : a ≤ m) (right : b ≤ m) : a = b := by
  wlog order : a ≤ b generalizing a b
  · exact (this alike.symm right left (by omega)).symm
  obtain ⟨k, apart⟩ : m ∣ b - a := (Nat.modEq_iff_dvd' order).1 alike.modEq
  have zero := alike.zero_iff
  cases k with
  | zero => omega
  | succ k =>
      rw [Nat.mul_succ] at apart
      omega

end Alike

/-- A factor one above the modulus does not count. -/
theorem alike_mul (m a : ℕ) : Alike m ((m + 1) * a) a := by
  constructor
  · rw [Nat.add_mul, Nat.one_mul]
    exact Nat.ModEq.trans (Nat.ModEq.add_right a ((Nat.modEq_zero_iff_dvd).2 ⟨a, rfl⟩))
      (by rw [Nat.zero_add])
  · simp

/-- **Adding the high part to the low part does not change what a number stands
for.** -/
theorem alike_fold (m a : ℕ) : Alike m (a / (m + 1) + a % (m + 1)) a := by
  have split := Nat.div_add_mod a (m + 1)
  have high := (alike_mul m (a / (m + 1))).symm.add (Alike.refl m (a % (m + 1)))
  rwa [split] at high

/-! ## Words of a block -/

/-- The sum of the little-endian 16-bit words of a block; an odd byte at the end
counts as a word. -/
def wordSum : List UInt8 → ℕ
  | [] => 0
  | [a] => a.toNat
  | a :: b :: rest => a.toNat + 256 * b.toNat + wordSum rest

theorem wordSum_append {front : List UInt8} (even : 2 ∣ front.length) (back : List UInt8) :
    wordSum (front ++ back) = wordSum front + wordSum back := by
  induction front using wordSum.induct with
  | case1 => simp [wordSum]
  | case2 a => simp at even
  | case3 a b rest ih =>
      have shorter : 2 ∣ rest.length := by
        rw [List.length_cons, List.length_cons] at even
        omega
      rw [List.cons_append, List.cons_append, wordSum, wordSum, ih shorter]
      omega

/-- **A block loaded as one integer is alike the sum of its words.** -/
theorem alike_littleValue (block : List UInt8) :
    Alike 65535 (ByteOrder.littleValue block) (wordSum block) := by
  induction block using wordSum.induct with
  | case1 => exact Alike.refl _ _
  | case2 a =>
      rw [ByteOrder.littleValue_cons]
      exact Alike.refl _ _
  | case3 a b rest ih =>
      have split : ByteOrder.littleValue (a :: b :: rest) =
          a.toNat + 256 * b.toNat + 65536 * ByteOrder.littleValue rest := by
        rw [ByteOrder.littleValue_cons, ByteOrder.littleValue_cons]
        omega
      rw [split, wordSum]
      exact (Alike.refl _ _).add ((alike_mul 65535 _).trans ih)

end ExanicCapture.Theory
