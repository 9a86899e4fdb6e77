/-
# Theory.Memory -- a byte memory, its leading bytes and block copies

A memory gives every index a value.  `front n` reads its first `n` values and
`copy` is the block copy of a list to an offset.  A block copied right behind a
front extends it (`front_copy`), and a copy leaves every index in front of its block
alone (`copy_of_lt`).  `slice` reads `n` values from an offset on: a block is read
back where it was copied, and a copy elsewhere does not show (`slice_copy_self`,
`slice_copy_apart`).  `copyAll` makes several copies in a row.
-/
import Mathlib.Data.List.Basic
import Mathlib.Data.List.Range
import Mathlib.Tactic.Common

namespace ExanicCapture.Theory.Memory

set_option autoImplicit false

universe u

variable {α : Type u}

/-- The first `n` values of a memory. -/
def front (n : ℕ) (mem : ℕ → α) : List α :=
  (List.range n).map mem

/-- The memory after `block` is stored at `offset`. -/
def copy (mem : ℕ → α) (offset : ℕ) (block : List α) : ℕ → α :=
  fun i => if offset ≤ i then (block[i - offset]?).getD (mem i) else mem i

@[simp] theorem front_length (n : ℕ) (mem : ℕ → α) : (front n mem).length = n := by
  simp [front]

@[simp] theorem front_zero (mem : ℕ → α) : front 0 mem = [] := rfl

theorem copy_of_lt (mem : ℕ → α) {offset : ℕ} (block : List α) {i : ℕ} (before : i < offset) :
    copy mem offset block i = mem i := by
  simp [copy, Nat.not_le.2 before]

theorem copy_at (mem : ℕ → α) (offset : ℕ) (block : List α) {j : ℕ} (inside : j < block.length) :
    copy mem offset block (offset + j) = block[j] := by
  simp [copy, inside]

theorem front_add (n k : ℕ) (mem : ℕ → α) :
    front (n + k) mem = front n mem ++ (List.range k).map fun j => mem (n + j) := by
  simp [front, List.range_add, Function.comp_def]

theorem copy_of_ge (mem : ℕ → α) {offset : ℕ} {block : List α} {i : ℕ}
    (behind : offset + block.length ≤ i) : copy mem offset block i = mem i := by
  have none : block[i - offset]? = none := List.getElem?_eq_none (by omega)
  simp [copy, none]

/-- At most one block was stored, and all of it below `limit`. -/
def StoresBelow (limit : ℕ) (before after : ℕ → α) : Prop :=
  after = before ∨
    ∃ offset block, offset + block.length ≤ limit ∧ after = copy before offset block

theorem StoresBelow.unchanged {limit : ℕ} {before after : ℕ → α}
    (stores : StoresBelow limit before after) {i : ℕ} (above : limit ≤ i) : after i = before i := by
  rcases stores with same | ⟨offset, block, below, copied⟩
  · rw [same]
  · rw [copied, copy_of_ge before (below.trans above)]

/-- A block stored right behind the first `n` values extends them. -/
theorem front_copy (n : ℕ) (mem : ℕ → α) {block : List α} {k : ℕ} (length : block.length = k) :
    front (n + k) (copy mem n block) = front n mem ++ block := by
  subst length
  rw [front_add]
  congr 1
  · exact List.map_congr_left fun i member => copy_of_lt mem block (List.mem_range.1 member)
  · refine List.ext_getElem (by simp) ?_
    intro j inside _
    rw [List.getElem_map, List.getElem_range, copy_at]

theorem front_take {n k : ℕ} (fewer : k ≤ n) (mem : ℕ → α) :
    (front n mem).take k = front k mem := by
  simp [front, ← List.map_take, List.take_range, Nat.min_eq_left fewer]

/-! ## Slices -/

/-- `n` values from `offset` on. -/
def slice (mem : ℕ → α) (offset n : ℕ) : List α :=
  (List.range n).map fun i => mem (offset + i)

@[simp] theorem slice_length (mem : ℕ → α) (offset n : ℕ) : (slice mem offset n).length = n := by
  simp [slice]

theorem slice_add (mem : ℕ → α) (offset n k : ℕ) :
    slice mem offset (n + k) = slice mem offset n ++ slice mem (offset + n) k := by
  simp [slice, List.range_add, Function.comp_def, Nat.add_assoc]

theorem slice_copy_self (mem : ℕ → α) (offset : ℕ) (block : List α) {n : ℕ}
    (length : block.length = n) : slice (copy mem offset block) offset n = block := by
  subst length
  refine List.ext_getElem (by simp) ?_
  intro j _ inside
  simp only [slice, List.getElem_map, List.getElem_range]
  exact copy_at mem offset block inside

theorem slice_congr {mem mem' : ℕ → α} {offset n : ℕ}
    (same : ∀ i, offset ≤ i → i < offset + n → mem' i = mem i) :
    slice mem' offset n = slice mem offset n := by
  refine List.map_congr_left ?_
  intro i member
  have := List.mem_range.1 member
  exact same _ (by omega) (by omega)

/-- A block stored elsewhere does not show. -/
theorem slice_copy_apart (mem : ℕ → α) {offset n at' : ℕ} {block : List α}
    (apart : offset + n ≤ at' ∨ at' + block.length ≤ offset) :
    slice (copy mem at' block) offset n = slice mem offset n := by
  apply slice_congr
  intro i low high
  rcases apart with before | behind
  · exact copy_of_lt mem block (by omega)
  · exact copy_of_ge mem (by omega)

theorem slice_take {n k : ℕ} (fewer : k ≤ n) (mem : ℕ → α) (offset : ℕ) :
    (slice mem offset n).take k = slice mem offset k := by
  simp [slice, ← List.map_take, List.take_range, Nat.min_eq_left fewer]

theorem slice_drop (mem : ℕ → α) (offset n k : ℕ) :
    (slice mem offset n).drop k = slice mem (offset + k) (n - k) := by
  rcases Nat.le_total n k with all | some
  · rw [Nat.sub_eq_zero_of_le all, List.drop_eq_nil_of_le (by simpa using all)]
    rfl
  · obtain ⟨rest, rfl⟩ := Nat.exists_eq_add_of_le some
    rw [slice_add, Nat.add_sub_cancel_left]
    exact List.drop_left' (slice_length mem offset k)

/-! ## Copies in a row -/

/-- The memory after each block is stored at its offset. -/
def copyAll (mem : ℕ → α) (stores : List (ℕ × List α)) : ℕ → α :=
  stores.foldl (fun mem store => copy mem store.1 store.2) mem

@[simp] theorem copyAll_nil (mem : ℕ → α) : copyAll mem [] = mem := rfl

@[simp] theorem copyAll_cons (mem : ℕ → α) (store : ℕ × List α) (stores : List (ℕ × List α)) :
    copyAll mem (store :: stores) = copyAll (copy mem store.1 store.2) stores := rfl

theorem copyAll_append (mem : ℕ → α) (first second : List (ℕ × List α)) :
    copyAll mem (first ++ second) = copyAll (copyAll mem first) second :=
  List.foldl_append

theorem copy_congr {mem mem' : ℕ → α} {i : ℕ} (same : mem' i = mem i) (offset : ℕ)
    (block : List α) : copy mem' offset block i = copy mem offset block i := by
  simp [copy, same]

/-- What a copy leaves at an index depends on what was there. -/
theorem copyAll_congr {mem mem' : ℕ → α} {i : ℕ} (same : mem' i = mem i)
    (stores : List (ℕ × List α)) : copyAll mem' stores i = copyAll mem stores i := by
  induction stores generalizing mem mem' with
  | nil => exact same
  | cons store stores ih => exact ih (copy_congr same store.1 store.2)

end ExanicCapture.Theory.Memory
