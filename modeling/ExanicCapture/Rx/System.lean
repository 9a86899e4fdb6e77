/-
# Rx.System -- the card and the reader, interleaved

`Sys` is the ring, how far the card has written, the call in progress and what
the calls so far returned.  A step is one chunk written by the card (`write`) or
one access of the reader (`read`), in any order, as long as the card stays within
255 laps of the reader (`CanWrite`).  A call that returns is logged and the next
one starts.

`Account` is the abstract receiver: it knows frames only, no ring and no
generations.  It walks over the frames in order; a call delivers the next frame,
reports nothing new, reports the next frame as too long, or reports an overrun
and goes on at the frame the card is writing.  `inv_run` is the refinement: the
log of every run is an account.  It needs no assumption on the interleaving, since
a frame of which an overwritten chunk was copied is marked `torn`, and
only a frame that is not torn is claimed to arrive intact.
-/
import ExanicCapture.Rx.Hardware
import ExanicCapture.Rx.ReceiveFrame
import Mathlib.Logic.Relation

namespace ExanicCapture.Rx

set_option autoImplicit false

open Theory Theory.LapRing

/-- What one call returned.  `torn` and `seen` are not visible to the caller:
whether some chunk of the frame was copied that had been overwritten since the load of
its word, and how many chunks the card had written. -/
structure Returned where
  ret : Int
  frameStatus : ℕ
  timestamp : UInt32
  data : List UInt8
  torn : Bool
  seen : ℕ

/-- The state of card and reader.  `loadedAt` is how far the card had written
when the reader last loaded a word, `torn` whether the current call has copied an
overwritten chunk. -/
structure Sys where
  ring : ℕ → RxChunk
  written : ℕ
  call : Call
  loadedAt : ℕ
  torn : Bool
  log : List Returned

namespace Sys

/-- The handle names position `p`, and the card is at most 255 laps ahead. -/
structure StandsAt (hw : Hardware) (p : ℕ) (s : Sys) : Prop where
  slot : s.call.rx.nextChunk = p % exanicRxNumChunks
  lap : s.call.rx.generation = hw.generation p
  reached : p ≤ s.written
  bounded : s.written ≤ p + 255 * exanicRxNumChunks

/-- The card keeps within 255 laps of the reader. -/
def CanWrite (hw : Hardware) (s : Sys) : Prop :=
  ∃ p, s.StandsAt hw p ∧ s.written < p + 255 * exanicRxNumChunks

/-- The card writes its next chunk. -/
def write (hw : Hardware) (s : Sys) : Sys :=
  { s with ring := hw.writeChunk s.ring s.written, written := s.written + 1 }

/-- Some chunk was written into the slot since the last load. -/
def overwritten (s : Sys) (chunk : ℕ) : Bool :=
  decide (∃ k < s.written, s.loadedAt ≤ k ∧ k % exanicRxNumChunks = chunk)

/-- The reader is about to copy a payload that is not the one whose word it
loaded.  A payload for which the buffer has no room is not copied. -/
def tears (rxBufSize : ℕ) (s : Sys) : Bool :=
  match s.call.pc with
  | .copy chunk info size => decide (size + info.size ≤ rxBufSize) && s.overwritten chunk
  | _ => false

def nextLoadedAt (s : Sys) : ℕ :=
  match s.call.pc with
  | .entry | .spin _ => s.written
  | _ => s.loadedAt

/-- The state after an access with which the call goes on. -/
def goOn (rxBufSize : ℕ) (s : Sys) (call : Call) : Sys :=
  { s with call, loadedAt := s.nextLoadedAt, torn := s.torn || s.tears rxBufSize }

/-- The state after an access with which the call returns: it is logged, and the
next one starts. -/
def finish (rxBufSize : ℕ) (s : Sys) (call : Call) (ret : Int) (frameStatus : ℕ) : Sys :=
  { s with
    call := { call with pc := .entry }
    loadedAt := s.nextLoadedAt
    torn := false
    log := s.log ++
      [{ ret, frameStatus, timestamp := call.timestamp
         data := Memory.front ret.toNat call.rxBuf
         torn := s.torn || s.tears rxBufSize, seen := s.written }] }

/-- The reader makes its next access. -/
def read (rxBufSize : ℕ) (s : Sys) : Sys :=
  match (s.call.step s.ring rxBufSize).pc with
  | .done ret frameStatus =>
      s.finish rxBufSize (s.call.step s.ring rxBufSize) ret frameStatus
  | _ => s.goOn rxBufSize (s.call.step s.ring rxBufSize)

/-- The runs start with the reader at the first chunk of frame `first`, anywhere
in the 255 laps behind the card. -/
structure Initial (hw : Hardware) (first : ℕ) (s : Sys) : Prop where
  ring : s.ring = hw.ringAfter s.written
  stands : s.StandsAt hw (hw.start first)
  entry : s.call.pc = .entry
  whole : s.torn = false
  log : s.log = []

end Sys

/-- One step of the card or of the reader. -/
inductive Step (hw : Hardware) (rxBufSize : ℕ) : Sys → Sys → Prop where
  | write {s : Sys} (room : s.CanWrite hw) : Step hw rxBufSize s (s.write hw)
  | read {s : Sys} : Step hw rxBufSize s (s.read rxBufSize)

/-! ## The abstract receiver -/

/-- The caller got exactly this frame. -/
structure Delivers (r : Returned) (f : Frame) : Prop where
  ret : r.ret = f.payload.length
  frameStatus : r.frameStatus = f.status
  timestamp : r.timestamp = f.last.timestamp
  data : r.data = f.payload

/-- The caller got this frame's length, status and timestamp, and its bytes
unless the frame was torn. -/
structure DeliversUnlessTorn (r : Returned) (f : Frame) : Prop where
  ret : r.ret = f.payload.length
  frameStatus : r.frameStatus = f.status
  timestamp : r.timestamp = f.last.timestamp
  data : r.torn = false → r.data = f.payload

/-- One call of the abstract receiver: where it stood, what the call returned,
where it stands now. -/
inductive Moves (D : Returned → Frame → Prop) (hw : Hardware) (rxBufSize : ℕ) :
    ℕ → Returned → ℕ → Prop where
  | delivered {c : ℕ} {r : Returned}
      (fits : (hw.frame c).payload.length ≤ rxBufSize) (delivers : D r (hw.frame c)) :
      Moves D hw rxBufSize c r (c + 1)
  | idle {c : ℕ} {r : Returned} (ret : r.ret = -1) (frameStatus : r.frameStatus = exanicRxFrameOk)
      (nothing : r.seen = hw.start c) : Moves D hw rxBufSize c r c
  | truncated {c : ℕ} {r : Returned} (ret : r.ret = -1)
      (frameStatus : r.frameStatus = exanicRxFrameTruncated)
      (tooLong : rxBufSize < (hw.frame c).payload.length) : Moves D hw rxBufSize c r (c + 1)
  | overrun {c next : ℕ} {r : Returned} (ret : r.ret = -1)
      (frameStatus : r.frameStatus = exanicRxFrameSwovfl)
      (lapped : hw.start c + exanicRxNumChunks < r.seen)
      (resumed : hw.start next ≤ r.seen ∧ r.seen < hw.start (next + 1)) :
      Moves D hw rxBufSize c r next

/-- The abstract receiver, from frame `first` on: the log it may produce and the
frame it stands at afterwards. -/
inductive Account (D : Returned → Frame → Prop) (hw : Hardware) (rxBufSize first : ℕ) :
    List Returned → ℕ → Prop where
  | start : Account D hw rxBufSize first [] first
  | call {log : List Returned} {c next : ℕ} {r : Returned}
      (before : Account D hw rxBufSize first log c) (moves : Moves D hw rxBufSize c r next) :
      Account D hw rxBufSize first (log ++ [r]) next

/-! ## The invariant -/

/-- The first `j` chunks of frame `c`, if they fit, are in the buffer, unless the
frame is torn. -/
def Filled (hw : Hardware) (rxBufSize c j : ℕ) (s : Sys) : Prop :=
  exanicRxChunkPayloadSize * j ≤ rxBufSize → s.torn = false →
    Memory.front (exanicRxChunkPayloadSize * j) s.call.rxBuf =
      ((hw.frame c).body.take j).flatMap HwChunk.bytes

/-- Chunk `j` of frame `c` was accepted and not yet copied. -/
structure Copying (hw : Hardware) (rxBufSize c j chunk : ℕ) (info : RxChunkInfo) (size : ℕ)
    (s : Sys) : Prop where
  inside : j ≤ (hw.frame c).body.length
  slot : chunk = (hw.start c + j) % exanicRxNumChunks
  word : info = (hw.chunk (hw.start c + j)).info
  size_eq : size = exanicRxChunkPayloadSize * j
  loaded : hw.start c + j < s.loadedAt
  current : s.loadedAt ≤ hw.start c + j + exanicRxNumChunks
  past : s.loadedAt ≤ s.written
  stands : s.StandsAt hw (hw.start c + j + 1)
  filled : Filled hw rxBufSize c j s

/-- Where the reader is while it works on frame `c`. -/
def Place (hw : Hardware) (rxBufSize c : ℕ) (s : Sys) : Prop :=
  match s.call.pc with
  | .entry => s.torn = false ∧ s.StandsAt hw (hw.start c)
  | .copy chunk info size => ∃ j, Copying hw rxBufSize c j chunk info size s
  | .spin size =>
      ∃ j ≤ (hw.frame c).body.length, size = exanicRxChunkPayloadSize * j ∧
        s.StandsAt hw (hw.start c + j) ∧ Filled hw rxBufSize c j s
  | .lapped =>
      ∃ p, hw.start c ≤ p ∧ p + exanicRxNumChunks < s.written ∧ s.StandsAt hw p
  | .done _ _ => False

/-- The invariant of every run. -/
structure Inv (hw : Hardware) (rxBufSize first : ℕ) (s : Sys) : Prop where
  ring : s.ring = hw.ringAfter s.written
  place : ∃ c, Account DeliversUnlessTorn hw rxBufSize first s.log c ∧ Place hw rxBufSize c s

/-! ## Poles: a card whose frames are one chunk long -/

namespace Poles

/-- A one-chunk frame of `length` bytes that are all `byte`. -/
def frame (byte length : UInt8) (nonzero : length ≠ 0)
    (fits : length.toNat ≤ exanicRxChunkPayloadSize) : Frame where
  body := []
  last :=
    { payload := Vector.replicate _ byte, timestamp := 0, frameStatus := 0, length,
      matchedFilter := 0 }
  body_length := by simp
  last_ne_zero := nonzero
  last_le := fits
  fits := exanicRxNumChunks_pos

/-- The first frame is two bytes long, every later one a single byte. -/
def card : Hardware where
  frame i :=
    if i = 0 then frame 1 2 (by decide) (by decide) else frame 2 1 (by decide) (by decide)
  generation0 := 0
  initial _ :=
    { payload := Vector.replicate _ 0
      info := { timestamp := 0, frameStatus := 0, length := 1, matchedFilter := 0
                generation := 255 } }
  initial_generation _ := rfl
  initial_length _ := by decide

theorem card_body (i : ℕ) : (card.frame i).body = [] := by
  by_cases first : i = 0 <;> simp [card, frame, first]

theorem card_start (i : ℕ) : card.start i = i := by
  induction i with
  | zero => exact card.start_zero
  | succ i ih => rw [card.start_succ, Frame.chunks_length, ih, card_body, List.length_nil]

theorem card_frame_later {i : ℕ} (later : i ≠ 0) : card.frame i = card.frame 1 := by
  simp [card, later]

theorem card_last (p : ℕ) : card.stream.entry p = (card.frame p).last := by
  have last := card.entry_last p
  rwa [card_start, card_body, List.length_nil, Nat.add_zero] at last

theorem card_status (p : ℕ) :
    (card.frame p).last.frameStatus = 0 ∧ (card.frame p).last.timestamp = 0 := by
  by_cases first : p = 0 <;> simp [card, frame, first]

/-- Every chunk but the first holds nothing but twos. -/
theorem card_chunk_later {k : ℕ} (later : k ≠ 0) :
    (card.chunk k).payload = Vector.replicate _ 2 := by
  simp only [Hardware.chunk, HwChunk.stamped, card_last, card_frame_later later]
  rfl

theorem card_payload (i : ℕ) : (card.frame i).payload = [1, 1] ∨ (card.frame i).payload = [2] := by
  by_cases first : i = 0
  · exact Or.inl (by subst first; decide)
  · refine Or.inr ?_
    rw [card_frame_later first]
    decide

/-- Card and reader before the first chunk. -/
def idle : Sys where
  ring := card.ringAfter 0
  written := 0
  call :=
    { rx := { nextChunk := 0, generation := 0, sentinelChunk := 0, sentinelChunkGeneration := 0 }
      rxBuf := fun _ => 0, timestamp := 0, pc := .entry }
  loadedAt := 0
  torn := false
  log := []

theorem idle_stands : idle.StandsAt card 0 :=
  ⟨by decide, by decide, le_rfl, by simp [idle]⟩

theorem idle_initial : idle.Initial card 0 :=
  ⟨rfl, idle_stands, rfl, rfl, rfl⟩

end Poles

end ExanicCapture.Rx
