/-
# Theory.Segments -- an unbounded sequence cut into nonempty segments

`Segments α` is a sequence of nonempty lists.  Read one after the other they are
one unbounded sequence of entries (`entry`); `start i` is the position at which
segment `i` begins.  A position is segment `i`'s `j`-th entry in exactly one way
(`locate_start_add`), so a statement about positions can be read as one about
segments and back.
-/
import Mathlib.Data.List.Basic
import Mathlib.Order.Monotone.Basic

namespace ExanicCapture.Theory

set_option autoImplicit false

universe u

/-- A sequence of nonempty lists. -/
structure Segments (α : Type u) where
  segment : ℕ → List α
  nonempty : ∀ i, segment i ≠ []

namespace Segments

variable {α : Type u} (S : Segments α)

theorem length_pos (i : ℕ) : 0 < (S.segment i).length :=
  List.length_pos_iff.2 (S.nonempty i)

/-- The position at which segment `i` begins. -/
def start : ℕ → ℕ
  | 0 => 0
  | i + 1 => start i + (S.segment i).length

@[simp] theorem start_zero : S.start 0 = 0 := rfl

theorem start_succ (i : ℕ) : S.start (i + 1) = S.start i + (S.segment i).length := rfl

theorem start_lt_succ (i : ℕ) : S.start i < S.start (i + 1) := by
  have := S.length_pos i
  rw [start_succ]
  omega

theorem start_strictMono : StrictMono S.start :=
  strictMono_nat_of_lt_succ S.start_lt_succ

/-- The segment a position lies in, and its place there. -/
def locate : ℕ → ℕ × ℕ
  | 0 => (0, 0)
  | k + 1 =>
      if (locate k).2 + 1 < (S.segment (locate k).1).length then
        ((locate k).1, (locate k).2 + 1)
      else ((locate k).1 + 1, 0)

theorem locate_lt (k : ℕ) : (S.locate k).2 < (S.segment (S.locate k).1).length := by
  cases k with
  | zero => exact S.length_pos 0
  | succ k =>
      simp only [locate]
      split
      · assumption
      · exact S.length_pos _

theorem start_locate (k : ℕ) : S.start (S.locate k).1 + (S.locate k).2 = k := by
  induction k with
  | zero => rfl
  | succ k ih =>
      have inside := S.locate_lt k
      simp only [locate]
      split
      · simp only
        omega
      · simp only [start_succ]
        omega

/-- A position belongs to one segment only. -/
theorem start_add_injective {i j i' j' : ℕ} (inside : j < (S.segment i).length)
    (inside' : j' < (S.segment i').length) (same : S.start i + j = S.start i' + j') :
    i = i' ∧ j = j' := by
  have order : ∀ {a b : ℕ}, a < b → S.start a + (S.segment a).length ≤ S.start b := by
    intro a b lt
    exact S.start_strictMono.monotone (Nat.succ_le_of_lt lt)
  rcases Nat.lt_trichotomy i i' with lt | rfl | gt
  · have := order lt
    omega
  · exact ⟨rfl, by omega⟩
  · have := order gt
    omega

theorem locate_start_add {i j : ℕ} (inside : j < (S.segment i).length) :
    S.locate (S.start i + j) = (i, j) := by
  obtain ⟨first, second⟩ :=
    S.start_add_injective (S.locate_lt _) inside (S.start_locate (S.start i + j))
  exact Prod.ext first second

/-- The entry at a position of the whole sequence. -/
def entry (k : ℕ) : α :=
  (S.segment (S.locate k).1).get ⟨(S.locate k).2, S.locate_lt k⟩

theorem entry_start_add {i j : ℕ} (inside : j < (S.segment i).length) :
    S.entry (S.start i + j) = (S.segment i)[j] := by
  simp only [entry, S.locate_start_add inside, List.get_eq_getElem]

/-- Every position lies in some segment. -/
theorem exists_segment (k : ℕ) :
    ∃ i j, j < (S.segment i).length ∧ k = S.start i + j :=
  ⟨_, _, S.locate_lt k, (S.start_locate k).symm⟩

end Segments

end ExanicCapture.Theory
