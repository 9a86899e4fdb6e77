/-
# Rx.Feed -- any sequence of chunks, written round the ring

What the card writes, with no assumption on how it is cut into frames: chunk `k`
goes to slot `k % EXANIC_RX_NUM_CHUNKS` in generation
`generation0 + k / EXANIC_RX_NUM_CHUNKS`.  Slots that were never written carry the
generation before the first and a non-zero length.

`Feed.content` counts the unwritten slots as the entries of a lap before the
first, which makes the ring an instance of `Theory.LapRing`: chunk `k` is entry
`k + EXANIC_RX_NUM_CHUNKS` (`Feed.reflects_ringAfter`).
-/
import ExanicCapture.Rx.Chunk
import ExanicCapture.Theory.LapRing

namespace ExanicCapture.Rx

set_option autoImplicit false

open Theory.LapRing

/-- A chunk as the card fills it.  Its generation comes from its place in the
ring. -/
structure HwChunk where
  payload : Vector UInt8 exanicRxChunkPayloadSize
  timestamp : UInt32
  frameStatus : UInt8
  length : UInt8
  matchedFilter : UInt8

def HwChunk.stamped (c : HwChunk) (generation : UInt8) : RxChunk :=
  { payload := c.payload
    info :=
      { timestamp := c.timestamp, frameStatus := c.frameStatus, length := c.length
        matchedFilter := c.matchedFilter, generation } }

def HwChunk.bytes (c : HwChunk) : List UInt8 :=
  payloadBytes c.payload c.length

/-- Everything a card ever writes, the generation of its first lap, and what the
slots hold before it writes them. -/
structure Feed where
  entry : ℕ → HwChunk
  generation0 : UInt8
  initial : ℕ → RxChunk
  initial_generation : ∀ i, (initial i).info.generation = generation0 - 1
  initial_length : ∀ i, (initial i).info.length ≠ 0

namespace Feed

variable (feed : Feed)

/-- The generation of chunk `k`. -/
def generation (k : ℕ) : UInt8 := feed.generation0 + UInt8.ofNat (k / exanicRxNumChunks)

/-- Chunk `k`, as it stands in the ring. -/
def chunk (k : ℕ) : RxChunk := (feed.entry k).stamped (feed.generation k)

/-- The ring after the first `w` chunks. -/
def ringAfter : ℕ → ℕ → RxChunk
  | 0 => feed.initial
  | w + 1 => Function.update (ringAfter w) (w % exanicRxNumChunks) (feed.chunk w)

/-- The stamp of a lap, the lap before the first one included. -/
def stamp (l : ℕ) : UInt8 := feed.generation0 - 1 + UInt8.ofNat l

/-- The entries of the lap ring. -/
def content (e : ℕ) : RxChunk :=
  if e < exanicRxNumChunks then feed.initial e else feed.chunk (e - exanicRxNumChunks)

theorem stamp_succ (l : ℕ) : feed.stamp (l + 1) = feed.stamp l + 1 := by
  rw [stamp, stamp, UInt8.ofNat_add, UInt8.add_assoc]
  rfl

theorem recycled_stamp : Recycled 256 feed.stamp := by
  intro a b
  rw [stamp, stamp, UInt8.add_right_inj, ← UInt8.toNat_inj]
  simp

/-- Chunk `k` lies one lap further in the lap ring. -/
theorem stamp_lap (k : ℕ) :
    feed.stamp ((k + exanicRxNumChunks) / exanicRxNumChunks) = feed.generation k := by
  rw [Nat.add_div_right _ exanicRxNumChunks_pos, stamp, generation, UInt8.ofNat_add]
  grind

theorem stamp_lap_before (k : ℕ) :
    feed.stamp ((k + exanicRxNumChunks) / exanicRxNumChunks - 1) = feed.generation k - 1 := by
  rw [Nat.add_div_right _ exanicRxNumChunks_pos, stamp, generation, Nat.add_sub_cancel]
  grind

theorem content_of_lt {e : ℕ} (unwritten : e < exanicRxNumChunks) :
    feed.content e = feed.initial e := by
  simp [content, unwritten]

theorem content_add (k : ℕ) : feed.content (k + exanicRxNumChunks) = feed.chunk k := by
  simp [content]

theorem content_generation (e : ℕ) :
    (feed.content e).info.generation = feed.stamp (e / exanicRxNumChunks) := by
  rcases Nat.lt_or_ge e exanicRxNumChunks with unwritten | written
  · rw [feed.content_of_lt unwritten, feed.initial_generation, Nat.div_eq_of_lt unwritten, stamp]
    exact (UInt8.add_zero _).symm
  · obtain ⟨k, rfl⟩ := Nat.exists_eq_add_of_le' written
    rw [feed.content_add, feed.stamp_lap]
    rfl

theorem reflects_ringAfter (w : ℕ) :
    Reflects exanicRxNumChunks feed.content (w + exanicRxNumChunks) (feed.ringAfter w) := by
  induction w with
  | zero =>
      intro e written _
      have unwritten : e < exanicRxNumChunks := by omega
      rw [Nat.mod_eq_of_lt unwritten, feed.content_of_lt unwritten]
      rfl
  | succ w ih =>
      have next := ih.write
      rw [Nat.add_mod_right, feed.content_add] at next
      rw [Nat.add_right_comm]
      exact next

/-! ## Where frames begin -/

/-- The position begins a frame: it is the first of all, or the chunk before it
ends a frame. -/
def FrameStart (p : ℕ) : Prop :=
  ∀ k, k + 1 = p → (feed.chunk k).info.length ≠ 0

/-- The handle names position `p`. -/
def NamedBy (p : ℕ) (rx : ExanicRx) : Prop :=
  rx.nextChunk = p % exanicRxNumChunks ∧ rx.generation = feed.generation p

theorem frameStart_zero : feed.FrameStart 0 :=
  fun k next => absurd next k.succ_ne_zero

theorem frameStart_succ {k : ℕ} : feed.FrameStart (k + 1) ↔ (feed.chunk k).info.length ≠ 0 := by
  constructor
  · intro starts
    exact starts k rfl
  · intro eof j next
    obtain rfl : j = k := by omega
    exact eof

end Feed

end ExanicCapture.Rx
