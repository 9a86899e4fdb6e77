/-
# Theory.Numbered -- names with a number behind them

`numeral` writes a number with the most significant digit first, and nothing for 0.
A name is a stem with the numeral of a number behind it.  Nothing marks where the
stem ends, so names with different stems can be the same: `numbered_eq_iff` says
that they are exactly if the longer stem is the shorter one with a numeral behind it,
and these are the leading digits of the shorter stem's number.

`stem_of_shared` bounds that numeral where the numbers are bounded, and
`numbered_one` finds such a name for every numeral within the bound.
-/
import Mathlib.Data.Nat.Digits.Lemmas

namespace ExanicCapture.Theory.Numbered

set_option autoImplicit false

universe u

variable {α : Type u} {base : ℕ} {digit : ℕ → α}

/-- The digits of `n`, the most significant one first. -/
def numeral (base : ℕ) (digit : ℕ → α) (n : ℕ) : List α :=
  (Nat.digits base n).reverse.map digit

@[simp] theorem numeral_zero : numeral base digit 0 = [] := by
  simp [numeral]

/-- Two numerals in a row are one numeral. -/
theorem numeral_append (positive : 0 < base) (k m : ℕ) :
    numeral base digit k ++ numeral base digit m =
      numeral base digit (m + base ^ (Nat.digits base m).length * k) := by
  rw [numeral, numeral, numeral, ← Nat.digits_append_digits positive, List.reverse_append,
    List.map_append]

theorem map_digit_injective (readable : Set.InjOn digit (Set.Iio base)) {ds es : List ℕ}
    (small : ∀ d ∈ ds, d < base) (small' : ∀ d ∈ es, d < base)
    (same : ds.map digit = es.map digit) : ds = es := by
  induction ds generalizing es with
  | nil => exact (List.map_eq_nil_iff.1 same.symm).symm
  | cons d ds ih =>
      cases es with
      | nil => cases same
      | cons e es =>
          obtain ⟨head, tail⟩ := List.cons.inj same
          obtain rfl := readable (small d List.mem_cons_self) (small' e List.mem_cons_self) head
          congr 1
          exact ih (fun x member => small x (List.mem_cons_of_mem _ member))
            (fun x member => small' x (List.mem_cons_of_mem _ member)) tail

section

variable (binary : 1 < base) (readable : Set.InjOn digit (Set.Iio base))
include binary

/-- The number behind a longer stem can always be 1. -/
theorem numbered_one (s : List α) (k : ℕ) :
    s ++ numeral base digit (base * k + 1) =
      s ++ numeral base digit k ++ numeral base digit 1 := by
  have one : (Nat.digits base 1).length = 1 := by
    rw [Nat.digits_of_lt base 1 (by decide) binary, List.length_singleton]
  rw [List.append_assoc, numeral_append (by omega), one, pow_one, Nat.add_comm]

include readable

/-- What stands in front of a numeral within a numeral is a numeral. -/
theorem numeral_suffix {n m : ℕ} {front : List α}
    (split : numeral base digit n = front ++ numeral base digit m) :
    ∃ k, front = numeral base digit k ∧ n = m + base ^ (Nat.digits base m).length * k := by
  obtain ⟨high, low, cut, rfl, same⟩ := List.map_eq_append_iff.1 split
  have inside : ∀ d ∈ high ++ low, d < base := by
    intro d member
    rw [← cut] at member
    exact Nat.digits_lt_base binary (List.mem_reverse.1 member)
  have low_eq : low = (Nat.digits base m).reverse :=
    map_digit_injective readable (fun d member => inside d (List.mem_append_right _ member))
      (fun d member => Nat.digits_lt_base binary (List.mem_reverse.1 member)) same
  have digits : Nat.digits base n = Nat.digits base m ++ high.reverse := by
    rw [← List.reverse_reverse (Nat.digits base n), cut, low_eq, List.reverse_append,
      List.reverse_reverse]
  have leading : Nat.digits base (Nat.ofDigits base high.reverse) = high.reverse := by
    refine Nat.digits_ofDigits base binary _ ?_ ?_
    · intro d member
      exact inside d (List.mem_append_left _ (List.mem_reverse.1 member))
    · intro nonempty
      have nonzero : n ≠ 0 := by
        rintro rfl
        exact nonempty (List.append_eq_nil_iff.1 (digits.symm.trans (Nat.digits_zero base))).2
      have last := Nat.getLast_digit_ne_zero base nonzero
      simp only [digits, List.getLast_append_of_ne_nil _ nonempty] at last
      exact last
  refine ⟨Nat.ofDigits base high.reverse, ?_, ?_⟩
  · rw [numeral, leading, List.reverse_reverse]
  · have value := congrArg (Nat.ofDigits base) digits
    rwa [Nat.ofDigits_append, Nat.ofDigits_digits, Nat.ofDigits_digits] at value

/-- **When two numbered names are the same.** -/
theorem numbered_eq_iff {s t : List α} {n m : ℕ} :
    s ++ numeral base digit n = t ++ numeral base digit m ↔
      (∃ k, t = s ++ numeral base digit k ∧ n = m + base ^ (Nat.digits base m).length * k) ∨
        ∃ k, s = t ++ numeral base digit k ∧ m = n + base ^ (Nat.digits base n).length * k := by
  rw [List.append_eq_append_iff]
  constructor
  · rintro (⟨between, stem, number⟩ | ⟨between, stem, number⟩)
    · obtain ⟨k, rfl, value⟩ := numeral_suffix binary readable number
      exact Or.inl ⟨k, stem, value⟩
    · obtain ⟨k, rfl, value⟩ := numeral_suffix binary readable number
      exact Or.inr ⟨k, stem, value⟩
  · rintro (⟨k, stem, value⟩ | ⟨k, stem, value⟩)
    · exact Or.inl ⟨_, stem, by rw [numeral_append (by omega), value]⟩
    · exact Or.inr ⟨_, stem, by rw [numeral_append (by omega), value]⟩

/-- Names with numbers from 1 to a bound are the same only if one stem is the other
with a numeral behind it that leaves room for a digit. -/
theorem stem_of_shared {s t : List α} {n m limit : ℕ} (one_le : 1 ≤ n) (le : n ≤ limit)
    (one_le' : 1 ≤ m) (le' : m ≤ limit)
    (same : s ++ numeral base digit n = t ++ numeral base digit m) :
    ∃ k, base * k + 1 ≤ limit ∧
      (t = s ++ numeral base digit k ∨ s = t ++ numeral base digit k) := by
  have shift : ∀ j k : ℕ, 1 ≤ j → base * k ≤ base ^ (Nat.digits base j).length * k := by
    intro j k positive
    have nonempty : 0 < (Nat.digits base j).length :=
      List.length_pos_iff.2 (Nat.digits_ne_nil_iff_ne_zero.2 (by omega))
    exact Nat.mul_le_mul_right k (Nat.le_self_pow (by omega) base)
  rcases (numbered_eq_iff binary readable).1 same with ⟨k, stem, value⟩ | ⟨k, stem, value⟩
  · have := shift m k one_le'
    exact ⟨k, by omega, Or.inl stem⟩
  · have := shift n k one_le
    exact ⟨k, by omega, Or.inr stem⟩

end

/-! ## The numerals of the standard library -/

/-- `Nat.toDigits`, but for 0. -/
theorem toDigits_eq_numeral (binary : 1 < base) {n : ℕ} (positive : 0 < n) :
    Nat.toDigits base n = numeral base Nat.digitChar n := by
  induction n using Nat.strong_induction_on with
  | _ n ih =>
      rcases Nat.lt_or_ge n base with small | large
      · rw [Nat.toDigits_of_lt_base small, numeral, Nat.digits_of_lt base n (by omega) small]
        rfl
      · have smaller : n / base < n := Nat.div_lt_self positive binary
        rw [Nat.toDigits_of_base_le binary large, ih _ smaller (Nat.div_pos large (by omega)),
          numeral, numeral, Nat.digits_def' binary positive, List.reverse_cons, List.map_append]
        rfl

theorem digitChar_injOn : Set.InjOn Nat.digitChar (Set.Iio 10) := by
  intro i small j small' same
  have small : i < 10 := small
  have small' : j < 10 := small'
  have value := congrArg Char.toNat same
  rw [Nat.toNat_digitChar_of_lt_ten small, Nat.toNat_digitChar_of_lt_ten small'] at value
  omega

end ExanicCapture.Theory.Numbered
