/-
# Theory.LapRing -- reading a ring whose writer stamps every lap

A writer puts an unbounded sequence `content 0, content 1, ...` into a ring of
`n` slots, entry `k` at slot `k % n`, and marks each entry with a stamp of its
lap `k / n`.  Stamps are recycled: two laps share a stamp exactly when they agree
modulo `m`.  The first `n` entries of the sequence are what the slots held
before the writer started, so every slot always holds some entry.

A reader that wants entry `p` looks at slot `p % n` and compares the stamp it
finds with the stamp of lap `p / n`.  `read_current_iff` and `read_pending_iff`
say what the comparison means for a reader at most `m - 1` laps behind: the
expected stamp means entry `p` itself, the stamp of the lap before means that the
writer stands exactly at `p`, and any other stamp means that `p` is overwritten.
One lap more and the stamps wrap round, so the bound is the best possible.
-/
import Mathlib.Algebra.Order.Ring.Nat
import Mathlib.Data.Nat.ModEq
import Mathlib.Logic.Function.Basic
import Mathlib.Tactic.Ring

namespace ExanicCapture.Theory.LapRing

set_option autoImplicit false

universe u v

variable {α : Type u} {G : Type v} {n m : ℕ}

/-! ## Slots and laps -/

theorem succ_slot_of_last {p : ℕ} (last : p % n + 1 = n) : (p + 1) % n = 0 := by
  rw [Nat.add_mod, ← Nat.mod_add_mod]
  rcases Nat.lt_or_ge 1 n with big | small
  · rw [Nat.mod_eq_of_lt big, Nat.mod_mod, last, Nat.mod_self]
  · have one : n = 1 := by omega
    subst one
    omega

theorem succ_lap_of_last {p : ℕ} (last : p % n + 1 = n) : (p + 1) / n = p / n + 1 := by
  have whole : p + 1 = n * (p / n + 1) := by
    have := Nat.div_add_mod p n
    rw [Nat.mul_add, Nat.mul_one]
    omega
  rw [whole, Nat.mul_div_cancel_left _ (by omega)]

theorem succ_slot_of_inner {p : ℕ} (inner : p % n + 1 < n) : (p + 1) % n = p % n + 1 := by
  rw [← Nat.mod_eq_of_lt inner, Nat.mod_add_mod]

theorem succ_lap_of_inner {p : ℕ} (inner : p % n + 1 < n) : (p + 1) / n = p / n := by
  have split : p + 1 = p % n + 1 + n * (p / n) := by
    have := Nat.div_add_mod p n
    omega
  rw [split, Nat.add_mul_div_left _ _ (by omega), Nat.div_eq_of_lt inner, Nat.zero_add]

theorem lap_entry {q i : ℕ} (inside : i < n) : (q * n + i) / n = q := by
  rw [Nat.mul_comm, Nat.mul_add_div (by omega), Nat.div_eq_of_lt inside, Nat.add_zero]

theorem slot_entry {q i : ℕ} (inside : i < n) : (q * n + i) % n = i := by
  rw [Nat.mul_add_mod_self_right, Nat.mod_eq_of_lt inside]

theorem lap_before (p : ℕ) : (p - n) / n = p / n - 1 := by
  simpa using Nat.sub_mul_div p n 1

/-! ## What the slots hold -/

/-- The ring reflects the first `w` entries: each of the last `n` of them is
still in its slot. -/
def Reflects (n : ℕ) (content : ℕ → α) (w : ℕ) (ring : ℕ → α) : Prop :=
  ∀ k, k < w → w ≤ k + n → ring (k % n) = content k

namespace Reflects

variable {content : ℕ → α} {w : ℕ} {ring : ℕ → α}

/-- Writing the next entry into its slot keeps the ring a reflection. -/
theorem write (reflects : Reflects n content w ring) :
    Reflects n content (w + 1) (Function.update ring (w % n) (content w)) := by
  intro k written recent
  rcases Nat.lt_succ_iff_lt_or_eq.1 written with older | rfl
  · have other : k % n ≠ w % n := by
      intro same
      have apart : n ∣ w - k := (Nat.modEq_iff_dvd' older.le).1 same
      have := Nat.le_of_dvd (by omega) apart
      omega
    rw [Function.update_of_ne other]
    exact reflects k older (by omega)
  · rw [Function.update_self]

theorem at_lap (reflects : Reflects n content w ring) {p j : ℕ} (written : p + j * n < w)
    (recent : w ≤ p + (j + 1) * n) : ring (p % n) = content (p + j * n) := by
  have := reflects (p + j * n) written (by rw [Nat.add_mul] at recent; omega)
  rwa [Nat.add_mul_mod_self_right] at this

/-- Entry `p` is in its slot while it is written and no later entry has taken
the slot. -/
theorem current (reflects : Reflects n content w ring) {p : ℕ} (written : p < w)
    (recent : w ≤ p + n) : ring (p % n) = content p :=
  reflects p written recent

/-- Where the writer stands, the slot still holds the entry of the lap before. -/
theorem pending (reflects : Reflects n content w ring) (positive : 0 < n) (full : n ≤ w) :
    ring (w % n) = content (w - n) := by
  have := reflects (w - n) (by omega) (by omega)
  rwa [← Nat.mod_eq_sub_mod full] at this

/-- Below the writer's slot the ring holds the lap being written. -/
theorem below (reflects : Reflects n content w ring) (positive : 0 < n) {i : ℕ}
    (low : i < w % n) : ring i = content (w / n * n + i) := by
  have inside : i < n := low.trans (Nat.mod_lt _ positive)
  have parts := Nat.div_add_mod' w n
  have := reflects (w / n * n + i) (by omega) (by have := Nat.mod_lt w positive; omega)
  rwa [slot_entry inside] at this

/-- From the writer's slot on the ring holds the lap before. -/
theorem above (reflects : Reflects n content w ring) (full : n ≤ w) {i : ℕ} (inside : i < n)
    (high : w % n ≤ i) : ring i = content ((w / n - 1) * n + i) := by
  have positive : 0 < n := by omega
  have parts := Nat.div_add_mod' w n
  have lap : 1 ≤ w / n := (Nat.one_le_div_iff positive).2 full
  have earlier : (w / n - 1) * n + n = w / n * n := by
    rw [← Nat.succ_mul, Nat.succ_eq_add_one, Nat.sub_add_cancel lap]
  have := reflects ((w / n - 1) * n + i) (by omega) (by omega)
  rwa [slot_entry inside] at this

/-- Whatever slot is read, it holds one of the last `n` entries. -/
theorem holds (reflects : Reflects n content w ring) (full : n ≤ w) {i : ℕ} (inside : i < n) :
    ∃ k, k % n = i ∧ k < w ∧ w ≤ k + n ∧ ring i = content k := by
  have slots := Nat.mod_lt w (by omega : 0 < n)
  have parts := Nat.div_add_mod' w n
  rcases Nat.lt_or_ge i (w % n) with low | high
  · exact ⟨w / n * n + i, slot_entry inside, by omega, by omega,
      reflects.below (by omega) low⟩
  · have lap : 1 ≤ w / n := (Nat.one_le_div_iff (by omega)).2 full
    have earlier : (w / n - 1) * n + n = w / n * n := by
      rw [← Nat.succ_mul, Nat.succ_eq_add_one, Nat.sub_add_cancel lap]
    exact ⟨(w / n - 1) * n + i, slot_entry inside, by omega, by omega,
      reflects.above full inside high⟩

end Reflects

/-! ## What a stamp tells the reader -/

section Stamps

variable {content : ℕ → α} {w : ℕ} {ring : ℕ → α} {mark : α → G} {stamp : ℕ → G}

/-- Two laps share a stamp exactly when they agree modulo `m`. -/
def Recycled (m : ℕ) (stamp : ℕ → G) : Prop :=
  ∀ a b, stamp a = stamp b ↔ a % m = b % m

/-- Every entry carries the stamp of its lap. -/
def Stamped (n : ℕ) (mark : α → G) (stamp : ℕ → G) (content : ℕ → α) : Prop :=
  ∀ k, mark (content k) = stamp (k / n)

theorem Recycled.ne_of_close (recycled : Recycled m stamp) {a d : ℕ} (positive : 0 < d)
    (close : d < m) : stamp (a + d) ≠ stamp a := by
  intro same
  have congruent : a + 0 ≡ a + d [MOD m] := ((recycled _ _).1 same).symm
  have zero := Nat.ModEq.add_left_cancel' a congruent
  rw [Nat.ModEq, Nat.zero_mod, Nat.mod_eq_of_lt close] at zero
  omega

/-- An overwritten slot carries the stamp of a later lap, at most `m - 2` laps
after the one the reader expects. -/
theorem read_overwritten (reflects : Reflects n content w ring)
    (stamped : Stamped n mark stamp content) {p : ℕ} (positive : 0 < n)
    (passed : p + n < w) (bounded : w ≤ p + (m - 1) * n) :
    ∃ j, 1 ≤ j ∧ j + 1 < m ∧ mark (ring (p % n)) = stamp (p / n + j) := by
  refine ⟨(w - 1 - p) / n, (Nat.one_le_div_iff positive).2 (by omega), ?_, ?_⟩
  · have few : (w - 1 - p) / n < m - 1 := by
      rw [Nat.div_lt_iff_lt_mul positive]
      omega
    exact Nat.add_lt_of_lt_sub few
  · have parts := Nat.div_add_mod' (w - 1 - p) n
    have rest := Nat.mod_lt (w - 1 - p) positive
    rw [reflects.at_lap (j := (w - 1 - p) / n) (by omega) (by rw [Nat.add_mul]; omega), stamped,
      Nat.add_mul_div_right _ _ positive]

/-- **The expected stamp is found exactly when entry `p` is in its slot.** -/
theorem read_current_iff (recycled : Recycled m stamp) (reflects : Reflects n content w ring)
    (stamped : Stamped n mark stamp content) {p : ℕ} (positive : 0 < n) (two : 2 ≤ m)
    (started : n ≤ p) (reached : p ≤ w) (bounded : w ≤ p + (m - 1) * n) :
    mark (ring (p % n)) = stamp (p / n) ↔ p < w ∧ w ≤ p + n := by
  constructor
  · intro found
    rcases Nat.lt_or_ge p w with written | caught
    · refine ⟨written, Nat.le_of_not_lt ?_⟩
      intro passed
      obtain ⟨j, later, few, other⟩ := read_overwritten reflects stamped positive passed bounded
      exact recycled.ne_of_close later (by omega) (other.symm.trans found)
    · obtain rfl : p = w := le_antisymm reached caught
      rw [reflects.pending positive started, stamped, lap_before] at found
      have lap : 1 ≤ p / n := (Nat.one_le_div_iff positive).2 started
      have := recycled.ne_of_close (a := p / n - 1) (d := 1) one_pos (by omega)
      rw [Nat.sub_add_cancel lap] at this
      exact absurd found.symm this
  · rintro ⟨written, recent⟩
    rw [reflects.current written recent, stamped]

/-- An entry that was written still has its stamp exactly while it is in its slot. -/
theorem read_kept_iff (recycled : Recycled m stamp) (reflects : Reflects n content w ring)
    (stamped : Stamped n mark stamp content) {p : ℕ} (positive : 0 < n) (written : p < w)
    (bounded : w ≤ p + (m - 1) * n) : mark (ring (p % n)) = stamp (p / n) ↔ w ≤ p + n := by
  constructor
  · intro found
    by_contra passed
    obtain ⟨j, later, few, other⟩ :=
      read_overwritten reflects stamped positive (Nat.lt_of_not_le passed) bounded
    exact recycled.ne_of_close later (by omega) (other.symm.trans found)
  · intro recent
    rw [reflects.current written recent, stamped]

/-- **The stamp of the lap before is found exactly when the writer stands at
`p`.** -/
theorem read_pending_iff (recycled : Recycled m stamp) (reflects : Reflects n content w ring)
    (stamped : Stamped n mark stamp content) {p : ℕ} (positive : 0 < n) (two : 2 ≤ m)
    (started : n ≤ p) (reached : p ≤ w) (bounded : w ≤ p + (m - 1) * n) :
    mark (ring (p % n)) = stamp (p / n - 1) ↔ w = p := by
  have lap : 1 ≤ p / n := (Nat.one_le_div_iff positive).2 started
  constructor
  · intro found
    rcases Nat.lt_or_ge p w with written | caught
    · exfalso
      rcases Nat.lt_or_ge (p + n) w with passed | recent
      · obtain ⟨j, -, few, other⟩ := read_overwritten reflects stamped positive passed bounded
        refine recycled.ne_of_close (a := p / n - 1) (d := j + 1) (by omega) few ?_
        rw [← found, other]
        congr 1
        omega
      · rw [reflects.current written recent, stamped] at found
        have := recycled.ne_of_close (a := p / n - 1) (d := 1) one_pos (by omega)
        rw [Nat.sub_add_cancel lap] at this
        exact this found
    · exact le_antisymm caught reached
  · rintro rfl
    rw [reflects.pending positive started, stamped, lap_before]

/-- A reader's slot and stamp name one position among those at most `m - 1` laps
behind the writer. -/
theorem position_unique (recycled : Recycled m stamp) {p q : ℕ} (positive : 0 < n)
    (two : 2 ≤ m) (slot : p % n = q % n) (lap : stamp (p / n) = stamp (q / n))
    (reachedP : p ≤ w) (boundedP : w ≤ p + (m - 1) * n)
    (reachedQ : q ≤ w) (boundedQ : w ≤ q + (m - 1) * n) : p = q := by
  wlog order : p ≤ q generalizing p q
  · exact (this slot.symm lap.symm reachedQ boundedQ reachedP boundedP (by omega)).symm
  have congruent : p / n ≡ q / n [MOD m] := (recycled _ _).1 lap
  have laps : p / n ≤ q / n := Nat.div_le_div_right order
  have parts := Nat.div_add_mod' p n
  have parts' := Nat.div_add_mod' q n
  have close : q / n - p / n < m := by
    have : (q / n - p / n) * n ≤ (m - 1) * n := by
      rw [Nat.sub_mul]
      omega
    have := Nat.le_of_mul_le_mul_right this positive
    omega
  have equal : q / n - p / n = 0 :=
    Nat.eq_zero_of_dvd_of_lt ((Nat.modEq_iff_dvd' laps).1 congruent) close
  have : q / n = p / n := by omega
  rw [← parts, ← parts', this, slot]

end Stamps

end ExanicCapture.Theory.LapRing
