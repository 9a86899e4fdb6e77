/-
# Theory.RingArena -- blocks of a ring, taken in turn and freed in order

An arena of `size` bytes hands out blocks one behind the other.  Blocks are
numbered from 1; block 0 stands for "nothing yet" and ends at the end of the
arena.  When a block does not fit behind the last one, the arena starts a new lap
at offset 0 (`wrap`).  Blocks are freed in the order in which they were taken:
`seen` is the newest block known to be free, and everything up to it is free too.

`Room` is the test an allocator makes before it takes a block.  In an arena that
is `WellFormed`, a block taken with room lies apart from every block that is not
free (`apart`), and taking, wrapping and freeing keep the arena well formed.
-/
import Mathlib.Algebra.Order.Ring.Nat
import Mathlib.Logic.Function.Basic
import Mathlib.Tactic.Common

namespace ExanicCapture.Theory

set_option autoImplicit false

/-- `next` is the block to be taken next and `cursor` where it starts; `lap` is
the first block of the current lap. -/
structure Arena where
  size : ℕ
  next : ℕ
  seen : ℕ
  lap : ℕ
  cursor : ℕ
  start : ℕ → ℕ
  stop : ℕ → ℕ

namespace Arena

/-- An arena of which nothing was taken. -/
def empty (size : ℕ) : Arena where
  size
  next := 1
  seen := 0
  lap := 1
  cursor := 0
  start _ := size
  stop _ := size

/-- Take the next block, `n` bytes long. -/
def place (a : Arena) (n : ℕ) : Arena :=
  { a with
    next := a.next + 1
    cursor := a.cursor + n
    start := Function.update a.start a.next a.cursor
    stop := Function.update a.stop a.next (a.cursor + n) }

/-- Start a new lap. -/
def wrap (a : Arena) : Arena :=
  { a with lap := a.next, cursor := 0 }

/-- Everything up to block `k` is free. -/
def free (a : Arena) (k : ℕ) : Arena :=
  { a with seen := k }

/-- There is room for `n` bytes at the cursor: up to the end of the arena if the
current lap has reached the free blocks, up to the end of the last free block if it
has not. -/
def Room (a : Arena) (n : ℕ) : Prop :=
  (a.lap ≤ a.seen ∧ a.cursor + n ≤ a.size) ∨ (a.seen < a.lap ∧ a.cursor + n ≤ a.stop a.seen)

theorem Room.mono {a : Arena} {m n : ℕ} (room : a.Room n) (smaller : m ≤ n) : a.Room m :=
  room.imp
    (fun fits => ⟨fits.1, (Nat.add_le_add_left smaller _).trans fits.2⟩)
    (fun fits => ⟨fits.1, (Nat.add_le_add_left smaller _).trans fits.2⟩)

/-- The blocks from `seen` on lie in the order in which they were taken: those of
the current lap below the cursor, those of the lap before above it. -/
structure WellFormed (a : Arena) : Prop where
  seen_lt : a.seen < a.next
  lap_le : a.lap ≤ a.next
  cursor_le : a.cursor ≤ a.size
  ordered : ∀ j k, a.seen ≤ j → j < k → k < a.next → (k < a.lap ∨ a.lap ≤ j) →
    a.stop j ≤ a.start k
  block : ∀ k, a.seen ≤ k → k < a.next → a.start k ≤ a.stop k
  current : ∀ k, a.seen ≤ k → k < a.next → a.lap ≤ k → a.stop k ≤ a.cursor
  previous : ∀ k, a.seen ≤ k → k < a.lap → a.cursor ≤ a.stop k ∧ a.stop k ≤ a.size

theorem empty_wellFormed (size : ℕ) : (empty size).WellFormed where
  seen_lt := Nat.one_pos
  lap_le := le_rfl
  cursor_le := Nat.zero_le _
  ordered := by
    intro j k _ later before _
    simp only [empty] at before
    omega
  block := fun _ _ _ => le_rfl
  current := by
    intro k _ before behind
    simp only [empty] at before behind
    omega
  previous := fun _ _ _ => ⟨Nat.zero_le _, le_rfl⟩

namespace WellFormed

variable {a : Arena} {n k : ℕ}

theorem stop_le (wf : a.WellFormed) (after : a.seen ≤ k) (before : k < a.next) :
    a.stop k ≤ a.size := by
  rcases Nat.lt_or_ge k a.lap with earlier | current
  · exact (wf.previous k after earlier).2
  · exact (wf.current k after before current).trans wf.cursor_le

/-- **A block taken with room lies apart from every block that is not free.** -/
theorem apart (wf : a.WellFormed) (room : a.Room n) (after : a.seen < k) (before : k < a.next) :
    a.stop k ≤ a.cursor ∨ a.cursor + n ≤ a.start k := by
  rcases Nat.lt_or_ge k a.lap with earlier | current
  · -- the block lies in the lap before, above the last free one
    right
    rcases room with ⟨reached, -⟩ | ⟨-, fits⟩
    · omega
    · exact fits.trans (wf.ordered a.seen k le_rfl after before (Or.inl earlier))
  · exact Or.inl (wf.current k after.le before current)

theorem room_le (wf : a.WellFormed) (room : a.Room n) : a.cursor + n ≤ a.size := by
  rcases room with ⟨-, fits⟩ | ⟨-, fits⟩
  · exact fits
  · exact fits.trans (wf.stop_le le_rfl wf.seen_lt)

theorem place_start_of_ne (other : k ≠ a.next) : (a.place n).start k = a.start k :=
  Function.update_of_ne other _ _

theorem place_stop_of_ne (other : k ≠ a.next) : (a.place n).stop k = a.stop k :=
  Function.update_of_ne other _ _

theorem place_start_next : (a.place n).start a.next = a.cursor :=
  Function.update_self _ _ _

theorem place_stop_next : (a.place n).stop a.next = a.cursor + n :=
  Function.update_self _ _ _

theorem place (wf : a.WellFormed) (room : a.Room n) : (a.place n).WellFormed where
  seen_lt := Nat.lt_succ_of_lt wf.seen_lt
  lap_le := Nat.le_succ_of_le wf.lap_le
  cursor_le := wf.room_le room
  ordered := by
    intro j k after later before side
    have old : j ≠ a.next := by have : k < a.next + 1 := before; omega
    rw [place_stop_of_ne old]
    rcases Nat.lt_succ_iff_lt_or_eq.1 before with older | rfl
    · rw [place_start_of_ne older.ne]
      exact wf.ordered j k after later older side
    · rw [place_start_next]
      refine wf.current j after later (side.resolve_left ?_)
      exact Nat.not_lt.2 wf.lap_le
  block := by
    intro k after before
    rcases Nat.lt_succ_iff_lt_or_eq.1 before with older | rfl
    · rw [place_start_of_ne older.ne, place_stop_of_ne older.ne]
      exact wf.block k after older
    · rw [place_start_next, place_stop_next]
      exact Nat.le_add_right _ _
  current := by
    intro k after before behind
    rcases Nat.lt_succ_iff_lt_or_eq.1 before with older | rfl
    · rw [place_stop_of_ne older.ne]
      exact (wf.current k after older behind).trans (Nat.le_add_right _ _)
    · exact place_stop_next.le
  previous := by
    intro k after earlier
    have older : k < a.next := lt_of_lt_of_le earlier wf.lap_le
    rw [place_stop_of_ne older.ne]
    refine ⟨?_, (wf.previous k after earlier).2⟩
    show a.cursor + n ≤ a.stop k
    rcases room with ⟨reached, -⟩ | ⟨-, fits⟩
    · exact absurd (lt_of_lt_of_le earlier reached) (Nat.not_lt.2 after)
    · rcases Nat.eq_or_lt_of_le after with rfl | strict
      · exact fits
      · calc
          a.cursor + n ≤ a.stop a.seen := fits
          _ ≤ a.start k := wf.ordered a.seen k le_rfl strict older (Or.inl earlier)
          _ ≤ a.stop k := wf.block k after older

/-- A new lap may start once the current one has reached the free blocks. -/
theorem wrap (wf : a.WellFormed) (reached : a.lap ≤ a.seen) : a.wrap.WellFormed where
  seen_lt := wf.seen_lt
  lap_le := le_rfl
  cursor_le := Nat.zero_le _
  ordered := fun j k after later before _ =>
    wf.ordered j k after later before (Or.inr (reached.trans after))
  block := wf.block
  current := fun _ _ before behind => absurd before (Nat.not_lt.2 behind)
  previous := fun _ after before => ⟨Nat.zero_le _, wf.stop_le after before⟩

theorem free (wf : a.WellFormed) (later : a.seen ≤ k) (taken : k < a.next) :
    (a.free k).WellFormed where
  seen_lt := taken
  lap_le := wf.lap_le
  cursor_le := wf.cursor_le
  ordered := fun i j after => wf.ordered i j (later.trans after)
  block := fun j after => wf.block j (later.trans after)
  current := fun j after => wf.current j (later.trans after)
  previous := fun j after => wf.previous j (later.trans after)

end WellFormed

/-! ## Blocks of a least size -/

/-- The blocks of the current lap are at least `unit` bytes long. -/
def Dense (unit : ℕ) (a : Arena) : Prop :=
  unit * (a.next - a.lap) ≤ a.cursor

section Dense

variable {a : Arena} {unit n : ℕ}

theorem Dense.place (dense : a.Dense unit) (lap_le : a.lap ≤ a.next) (big : unit ≤ n) :
    (a.place n).Dense unit := by
  show unit * (a.next + 1 - a.lap) ≤ a.cursor + n
  rw [Nat.sub_add_comm lap_le, Nat.mul_add, Nat.mul_one]
  exact Nat.add_le_add dense big

theorem wrap_dense (a : Arena) (unit : ℕ) : a.wrap.Dense unit := by
  show unit * (a.next - a.next) ≤ 0
  rw [Nat.sub_self, Nat.mul_zero]

/-- A lap has only so many blocks. -/
theorem Dense.few (dense : a.Dense unit) (wf : a.WellFormed) :
    unit * (a.next - a.lap) ≤ a.size :=
  Nat.le_trans dense wf.cursor_le

end Dense

end Arena

end ExanicCapture.Theory
