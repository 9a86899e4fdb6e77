/-
# Rx.Hardware -- what the card writes into the ring

The card turns received frames into chunks and appends them to the ring: chunk
`k` goes to slot `k % EXANIC_RX_NUM_CHUNKS` in generation
`generation0 + k / EXANIC_RX_NUM_CHUNKS`.  A frame is a run of full chunks with
length 0 and one last chunk with length 1 to 120, and it never covers more than
the whole ring.  Slots that were never written carry the generation before the
first and a non-zero length.

Written out frame after frame, the card is a `Feed` (`Hardware.feed`), and what
the ring holds is known from there.
-/
import ExanicCapture.Rx.Catchup
import ExanicCapture.Rx.Feed
import ExanicCapture.Theory.Segments

namespace ExanicCapture.Rx

set_option autoImplicit false

open Theory Theory.LapRing

/-- A frame, cut into chunks. -/
structure Frame where
  body : List HwChunk
  last : HwChunk
  body_length : ∀ c ∈ body, c.length = 0
  last_ne_zero : last.length ≠ 0
  last_le : last.length.toNat ≤ exanicRxChunkPayloadSize
  fits : body.length + 1 ≤ exanicRxNumChunks

namespace Frame

def chunks (f : Frame) : List HwChunk :=
  f.body ++ [f.last]

/-- The bytes of the frame. -/
def payload (f : Frame) : List UInt8 :=
  f.chunks.flatMap HwChunk.bytes

/-- The status bits the receiver reports with the frame. -/
def status (f : Frame) : ℕ :=
  (f.last.frameStatus &&& exanicRxFrameErrorMask).toNat

theorem chunks_length (f : Frame) : f.chunks.length = f.body.length + 1 := by
  simp [chunks]

theorem chunks_body (f : Frame) {j : ℕ} (inside : j < f.body.length) :
    f.chunks.get ⟨j, by rw [chunks_length]; omega⟩ = f.body[j] := by
  simp [chunks, inside]

theorem body_bytes_length (f : Frame) {c : HwChunk} (member : c ∈ f.body) :
    c.bytes.length = exanicRxChunkPayloadSize := by
  simp [HwChunk.bytes, f.body_length c member, payloadBytes_full]

theorem last_bytes_length (f : Frame) : f.last.bytes.length = f.last.length.toNat :=
  payloadBytes_length f.last_ne_zero f.last_le

/-- The bytes of the first `j` chunks, all of them full. -/
theorem body_bytes_take_length (f : Frame) {j : ℕ} (inside : j ≤ f.body.length) :
    ((f.body.take j).flatMap HwChunk.bytes).length = exanicRxChunkPayloadSize * j := by
  induction j with
  | zero => simp
  | succ j ih =>
      rw [List.take_add_one, List.getElem?_eq_getElem inside, List.flatMap_append,
        List.length_append, ih (by omega)]
      simp [f.body_bytes_length (List.getElem_mem _), Nat.mul_add]

theorem payload_eq (f : Frame) : f.payload = f.body.flatMap HwChunk.bytes ++ f.last.bytes := by
  simp [payload, chunks]

theorem payload_length (f : Frame) :
    f.payload.length = exanicRxChunkPayloadSize * f.body.length + f.last.length.toNat := by
  have body := f.body_bytes_take_length le_rfl
  rw [List.take_length] at body
  rw [payload_eq, List.length_append, body, last_bytes_length]

end Frame

/-- The card: the frames it will deliver, the generation of its first lap, and
what the slots hold before it writes them. -/
structure Hardware where
  frame : ℕ → Frame
  generation0 : UInt8
  initial : ℕ → RxChunk
  initial_generation : ∀ i, (initial i).info.generation = generation0 - 1
  initial_length : ∀ i, (initial i).info.length ≠ 0

namespace Hardware

variable (hw : Hardware)

/-- The unbounded sequence of chunks, frame after frame. -/
def stream : Segments HwChunk where
  segment i := (hw.frame i).chunks
  nonempty i := by simp [Frame.chunks]

/-- The position of the first chunk of frame `i`. -/
def start (i : ℕ) : ℕ := hw.stream.start i

/-- The generation of chunk `k`. -/
def generation (k : ℕ) : UInt8 := hw.generation0 + UInt8.ofNat (k / exanicRxNumChunks)

/-- Chunk `k`, as it stands in the ring. -/
def chunk (k : ℕ) : RxChunk := (hw.stream.entry k).stamped (hw.generation k)

/-- The card writes chunk `k` into its slot. -/
def writeChunk (ring : ℕ → RxChunk) (k : ℕ) : ℕ → RxChunk :=
  Function.update ring (k % exanicRxNumChunks) (hw.chunk k)

/-- The ring after the first `w` chunks. -/
def ringAfter : ℕ → ℕ → RxChunk
  | 0 => hw.initial
  | w + 1 => hw.writeChunk (ringAfter w) w

/-! ## The ring as a lap ring -/

/-- The stamp of a lap, the lap before the first one included. -/
def stamp (l : ℕ) : UInt8 := hw.generation0 - 1 + UInt8.ofNat l

/-- The entries of the lap ring. -/
def content (e : ℕ) : RxChunk :=
  if e < exanicRxNumChunks then hw.initial e else hw.chunk (e - exanicRxNumChunks)

/-- The card, frames forgotten. -/
def feed : Feed where
  entry := hw.stream.entry
  generation0 := hw.generation0
  initial := hw.initial
  initial_generation := hw.initial_generation
  initial_length := hw.initial_length

theorem ringAfter_feed (w : ℕ) : hw.ringAfter w = hw.feed.ringAfter w := by
  induction w with
  | zero => rfl
  | succ w ih =>
      show hw.writeChunk (hw.ringAfter w) w = _
      rw [ih]
      rfl

theorem stamp_succ (l : ℕ) : hw.stamp (l + 1) = hw.stamp l + 1 :=
  hw.feed.stamp_succ l

theorem recycled_stamp : Recycled 256 hw.stamp :=
  hw.feed.recycled_stamp

/-- Chunk `k` lies one lap further in the lap ring. -/
theorem stamp_lap (k : ℕ) :
    hw.stamp ((k + exanicRxNumChunks) / exanicRxNumChunks) = hw.generation k :=
  hw.feed.stamp_lap k

theorem stamp_lap_before (k : ℕ) :
    hw.stamp ((k + exanicRxNumChunks) / exanicRxNumChunks - 1) = hw.generation k - 1 :=
  hw.feed.stamp_lap_before k

theorem content_of_lt {e : ℕ} (unwritten : e < exanicRxNumChunks) :
    hw.content e = hw.initial e :=
  hw.feed.content_of_lt unwritten

theorem content_add (k : ℕ) : hw.content (k + exanicRxNumChunks) = hw.chunk k :=
  hw.feed.content_add k

theorem content_generation (e : ℕ) :
    (hw.content e).info.generation = hw.stamp (e / exanicRxNumChunks) :=
  hw.feed.content_generation e

theorem reflects_ringAfter (w : ℕ) :
    Reflects exanicRxNumChunks hw.content (w + exanicRxNumChunks) (hw.ringAfter w) := by
  rw [ringAfter_feed]
  exact hw.feed.reflects_ringAfter w

/-! ## Frames in the stream -/

theorem start_zero : hw.start 0 = 0 := rfl

theorem start_succ (i : ℕ) : hw.start (i + 1) = hw.start i + (hw.frame i).chunks.length := rfl

theorem start_strictMono : StrictMono hw.start :=
  hw.stream.start_strictMono

/-- A frame is at most one lap long. -/
theorem start_succ_le (i : ℕ) : hw.start (i + 1) ≤ hw.start i + exanicRxNumChunks := by
  have := (hw.frame i).fits
  rw [start_succ, Frame.chunks_length]
  omega

/-- Every position lies in the frame that starts last at or before it. -/
theorem exists_frame (w : ℕ) : ∃ i, hw.start i ≤ w ∧ w < hw.start (i + 1) := by
  obtain ⟨i, j, inside, rfl⟩ := hw.stream.exists_segment w
  exact ⟨i, Nat.le_add_right _ _, Nat.add_lt_add_left inside _⟩

theorem entry_body (i : ℕ) {j : ℕ} (inside : j < (hw.frame i).body.length) :
    hw.stream.entry (hw.start i + j) = (hw.frame i).body[j] := by
  have inChunks : j < (hw.stream.segment i).length := by
    show j < (hw.frame i).chunks.length
    rw [Frame.chunks_length]
    omega
  rw [start, hw.stream.entry_start_add inChunks]
  exact (hw.frame i).chunks_body inside

theorem entry_last (i : ℕ) :
    hw.stream.entry (hw.start i + (hw.frame i).body.length) = (hw.frame i).last := by
  have inChunks : (hw.frame i).body.length < (hw.stream.segment i).length := by
    show (hw.frame i).body.length < (hw.frame i).chunks.length
    rw [Frame.chunks_length]
    omega
  rw [start, hw.stream.entry_start_add inChunks]
  simp [stream, Frame.chunks]

theorem chunk_length_body (i : ℕ) {j : ℕ} (inside : j < (hw.frame i).body.length) :
    (hw.chunk (hw.start i + j)).info.length = 0 := by
  show (hw.stream.entry (hw.start i + j)).length = 0
  rw [hw.entry_body i inside]
  exact (hw.frame i).body_length _ (List.getElem_mem _)

theorem chunk_length_last (i : ℕ) :
    (hw.chunk (hw.start i + (hw.frame i).body.length)).info.length ≠ 0 := by
  show (hw.stream.entry (hw.start i + (hw.frame i).body.length)).length ≠ 0
  rw [hw.entry_last i]
  exact (hw.frame i).last_ne_zero

/-- The last end of frame before a position inside frame `i` is the entry right
before the frame: the last chunk of the previous frame, or an unwritten slot. -/
theorem lastEofEntry {i w : ℕ} (after : hw.start i ≤ w) (inside : w < hw.start (i + 1)) :
    LastEofEntry hw.content (w + exanicRxNumChunks)
      (hw.start i + exanicRxNumChunks - 1) where
  written := by
    have := exanicRxNumChunks_pos
    omega
  recent := by
    have := hw.start_succ_le i
    omega
  eof := by
    have positive := exanicRxNumChunks_pos
    cases i with
    | zero =>
        have unwritten : hw.start 0 + exanicRxNumChunks - 1 < exanicRxNumChunks := by
          rw [start_zero]
          omega
        rw [hw.content_of_lt unwritten]
        exact hw.initial_length _
    | succ i =>
        have place : hw.start (i + 1) + exanicRxNumChunks - 1 =
            hw.start i + (hw.frame i).body.length + exanicRxNumChunks := by
          rw [start_succ, Frame.chunks_length]
          omega
        rw [place, hw.content_add]
        exact hw.chunk_length_last i
  none_after := by
    intro e later before
    obtain ⟨k, rfl⟩ : ∃ k, e = k + exanicRxNumChunks := Nat.exists_eq_add_of_le' (by omega)
    obtain ⟨j, rfl⟩ : ∃ j, k = hw.start i + j := Nat.exists_eq_add_of_le (by omega)
    have inBody : j < (hw.frame i).body.length := by
      rw [start_succ, Frame.chunks_length] at inside
      omega
    rw [hw.content_add]
    exact hw.chunk_length_body i inBody

/-- The positions behind an end of frame are the beginnings of the frames. -/
theorem frameStart_feed {p : ℕ} (starts : hw.feed.FrameStart p) : ∃ i, p = hw.start i := by
  obtain ⟨i, low, high⟩ := hw.exists_frame p
  obtain ⟨j, rfl⟩ := Nat.exists_eq_add_of_le low
  cases j with
  | zero => exact ⟨i, rfl⟩
  | succ j =>
      have inside : j < (hw.frame i).body.length := by
        rw [start_succ, Frame.chunks_length] at high
        omega
      exact absurd (hw.chunk_length_body i inside) (hw.feed.frameStart_succ.1 starts)

end Hardware

end ExanicCapture.Rx
