/-
# Rx.ReceiveFrame -- `exanic_receive_frame_ex`, one ring access at a time

The call is a state machine: `Pc` says which access to the ring comes next, and
`Call.step` makes that access and everything the code does up to the following
one.  The hardware may write between any two steps, so the ring is an argument of
every step.

* `entry` and `spin` load a metadata word of the next chunk (before the loop, and
  in the `do .. while` behind a full chunk);
* `copy` copies the payload of the chunk whose word was accepted, and decides
  between the end of the frame and one more chunk;
* `lapped` runs the catch-up scan.

The handle is advanced in the step that accepts a word, as the code advances it
before it copies.  `Access` lists all that a step can do (`step_access`).
-/
import ExanicCapture.Rx.Catchup
import ExanicCapture.Theory.Lockstep
import ExanicCapture.Theory.Memory

namespace ExanicCapture.Rx

set_option autoImplicit false

open Theory

/-- Where a call stands. -/
inductive Pc where
  | entry
  | copy (chunk : ℕ) (info : RxChunkInfo) (size : ℕ)
  | spin (size : ℕ)
  | lapped
  | done (ret : Int) (status : ℕ)
deriving DecidableEq

/-- A call in progress: the handle, the caller's buffer, `*timestamp` and the
place in the code. -/
structure Call where
  rx : ExanicRx
  rxBuf : ℕ → UInt8
  timestamp : UInt32
  pc : Pc

namespace Call

/-- The word of the next chunk has the expected generation: remember the chunk,
advance the handle, go on to the payload. -/
def accept (c : Call) (info : RxChunkInfo) (size : ℕ) : Call :=
  { c with rx := c.rx.advance, pc := .copy c.rx.nextChunk info size }

/-- Process the chunk whose word was accepted. -/
def processChunk (ring : ℕ → RxChunk) (rxBufSize : ℕ) (c : Call) (chunk : ℕ)
    (info : RxChunkInfo) (size : ℕ) : Call :=
  let payload := (ring chunk).payload
  if info.length ≠ 0 then
    -- last chunk
    if size + info.length.toNat > rxBufSize then
      { c with pc := .done (-1) exanicRxFrameTruncated }
    else
      { c with
        rxBuf := Memory.copy c.rxBuf size (payload.toList.take info.length.toNat)
        timestamp := info.timestamp
        pc := .done (size + info.length.toNat : ℕ)
          (info.frameStatus &&& exanicRxFrameErrorMask).toNat }
  else
    -- more chunks to come
    { c with
      rxBuf :=
        if size + exanicRxChunkPayloadSize ≤ rxBufSize then
          Memory.copy c.rxBuf size payload.toList
        else c.rxBuf
      pc := .spin (size + exanicRxChunkPayloadSize) }

/-- One access of `exanic_receive_frame_ex` to the ring. -/
def step (ring : ℕ → RxChunk) (rxBufSize : ℕ) (c : Call) : Call :=
  match c.pc with
  | .entry =>
      let info := (ring c.rx.nextChunk).info
      if info.generation = c.rx.generation then c.accept info 0
      else if info.generation = c.rx.generation - 1 then
        -- no new packet
        { c with pc := .done (-1) exanicRxFrameOk }
      else { c with pc := .lapped }
  | .copy chunk info size => c.processChunk ring rxBufSize chunk info size
  | .spin size =>
      let info := (ring c.rx.nextChunk).info
      if info.generation = c.rx.generation - 1 then c
      else if info.generation ≠ c.rx.generation then { c with pc := .lapped }
      else c.accept info size
  | .lapped =>
      { c with
        rx := exanicRxCatchup (fun i => (ring i).info) c.rx
        pc := .done (-1) exanicRxFrameSwovfl }
  | .done _ _ => c

/-- The call after `k` accesses, where access `i` finds the ring as `rings i`. -/
def run (rings : ℕ → ℕ → RxChunk) (rxBufSize : ℕ) (c : Call) (k : ℕ) : Call :=
  Lockstep.run (fun ring c => c.step ring rxBufSize) rings c k

/-! ## What each access does -/

section Steps

variable {ring : ℕ → RxChunk} {rxBufSize : ℕ} {c : Call}

theorem generation_pred_ne (g : UInt8) : g - 1 ≠ g := by
  intro same
  have := congrArg UInt8.toNat same
  simp only [UInt8.toNat_sub, UInt8.toNat_one] at this
  have := g.toNat_lt
  omega

theorem step_entry_accept (pc : c.pc = .entry)
    (lap : (ring c.rx.nextChunk).info.generation = c.rx.generation) :
    c.step ring rxBufSize = c.accept (ring c.rx.nextChunk).info 0 := by
  simp [step, pc, lap]

theorem step_entry_idle (pc : c.pc = .entry)
    (lap : (ring c.rx.nextChunk).info.generation = c.rx.generation - 1) :
    c.step ring rxBufSize = { c with pc := .done (-1) exanicRxFrameOk } := by
  simp only [step, pc, lap, if_neg (generation_pred_ne c.rx.generation), if_true]

theorem step_entry_lapped (pc : c.pc = .entry)
    (ne : (ring c.rx.nextChunk).info.generation ≠ c.rx.generation)
    (ne_pred : (ring c.rx.nextChunk).info.generation ≠ c.rx.generation - 1) :
    c.step ring rxBufSize = { c with pc := .lapped } := by
  simp [step, pc, ne, ne_pred]

theorem step_spin_accept {size : ℕ} (pc : c.pc = .spin size)
    (lap : (ring c.rx.nextChunk).info.generation = c.rx.generation) :
    c.step ring rxBufSize = c.accept (ring c.rx.nextChunk).info size := by
  simp [step, pc, lap, (generation_pred_ne _).symm]

theorem step_spin_wait {size : ℕ} (pc : c.pc = .spin size)
    (lap : (ring c.rx.nextChunk).info.generation = c.rx.generation - 1) :
    c.step ring rxBufSize = c := by
  simp [step, pc, lap]

theorem step_spin_lapped {size : ℕ} (pc : c.pc = .spin size)
    (ne : (ring c.rx.nextChunk).info.generation ≠ c.rx.generation)
    (ne_pred : (ring c.rx.nextChunk).info.generation ≠ c.rx.generation - 1) :
    c.step ring rxBufSize = { c with pc := .lapped } := by
  simp [step, pc, ne, ne_pred]

theorem step_copy {chunk size : ℕ} {info : RxChunkInfo} (pc : c.pc = .copy chunk info size) :
    c.step ring rxBufSize = c.processChunk ring rxBufSize chunk info size := by
  simp [step, pc]

theorem step_lapped (pc : c.pc = .lapped) :
    c.step ring rxBufSize =
      { c with
        rx := exanicRxCatchup (fun i => (ring i).info) c.rx
        pc := .done (-1) exanicRxFrameSwovfl } := by
  simp [step, pc]

theorem processChunk_more {chunk size : ℕ} {info : RxChunkInfo} (more : info.length = 0) :
    c.processChunk ring rxBufSize chunk info size =
      { c with
        rxBuf :=
          if size + exanicRxChunkPayloadSize ≤ rxBufSize then
            Memory.copy c.rxBuf size (payloadBytes (ring chunk).payload info.length)
          else c.rxBuf
        pc := .spin (size + exanicRxChunkPayloadSize) } := by
  simp [processChunk, more, payloadBytes_full]

theorem processChunk_truncated {chunk size : ℕ} {info : RxChunkInfo} (last : info.length ≠ 0)
    (tooLong : rxBufSize < size + info.length.toNat) :
    c.processChunk ring rxBufSize chunk info size =
      { c with pc := .done (-1) exanicRxFrameTruncated } := by
  simp [processChunk, last, tooLong]

theorem processChunk_delivered {chunk size : ℕ} {info : RxChunkInfo} (last : info.length ≠ 0)
    (fits : size + info.length.toNat ≤ rxBufSize) :
    c.processChunk ring rxBufSize chunk info size =
      { c with
        rxBuf := Memory.copy c.rxBuf size (payloadBytes (ring chunk).payload info.length)
        timestamp := info.timestamp
        pc := .done (size + info.length.toNat : ℕ)
          (info.frameStatus &&& exanicRxFrameErrorMask).toNat } := by
  simp [processChunk, last, Nat.not_lt.2 fits, payloadBytes]

/-- All that one access can do. -/
inductive Access (ring : ℕ → RxChunk) (rxBufSize : ℕ) (c : Call) : Call → Prop where
  | stays : Access ring rxBufSize c c
  | accepts (size : ℕ) : Access ring rxBufSize c (c.accept (ring c.rx.nextChunk).info size)
  | idle (pc : c.pc = .entry) :
      Access ring rxBufSize c { c with pc := .done (-1) exanicRxFrameOk }
  | laps : Access ring rxBufSize c { c with pc := .lapped }
  | scans (pc : c.pc = .lapped) :
      Access ring rxBufSize c
        { c with
          rx := exanicRxCatchup (fun i => (ring i).info) c.rx
          pc := .done (-1) exanicRxFrameSwovfl }
  | more {chunk size : ℕ} {info : RxChunkInfo} (pc : c.pc = .copy chunk info size)
      (more : info.length = 0) :
      Access ring rxBufSize c
        { c with
          rxBuf :=
            if size + exanicRxChunkPayloadSize ≤ rxBufSize then
              Memory.copy c.rxBuf size (payloadBytes (ring chunk).payload info.length)
            else c.rxBuf
          pc := .spin (size + exanicRxChunkPayloadSize) }
  | truncated {chunk size : ℕ} {info : RxChunkInfo} (pc : c.pc = .copy chunk info size)
      (last : info.length ≠ 0) (tooLong : rxBufSize < size + info.length.toNat) :
      Access ring rxBufSize c { c with pc := .done (-1) exanicRxFrameTruncated }
  | delivered {chunk size : ℕ} {info : RxChunkInfo} (pc : c.pc = .copy chunk info size)
      (last : info.length ≠ 0) (fits : size + info.length.toNat ≤ rxBufSize) :
      Access ring rxBufSize c
        { c with
          rxBuf := Memory.copy c.rxBuf size (payloadBytes (ring chunk).payload info.length)
          timestamp := info.timestamp
          pc := .done (size + info.length.toNat : ℕ)
            (info.frameStatus &&& exanicRxFrameErrorMask).toNat }

theorem step_access (ring : ℕ → RxChunk) (rxBufSize : ℕ) (c : Call) :
    Access ring rxBufSize c (c.step ring rxBufSize) := by
  cases pc : c.pc with
  | entry =>
      simp only [step, pc]
      split
      · exact .accepts 0
      · split
        · exact .idle pc
        · exact .laps
  | spin size =>
      simp only [step, pc]
      split
      · exact .stays
      · split
        · exact .laps
        · exact .accepts size
  | lapped =>
      rw [step_lapped pc]
      exact .scans pc
  | done ret status =>
      simp only [step, pc]
      exact .stays
  | copy chunk info size =>
      rw [step_copy pc]
      by_cases last : info.length = 0
      · rw [processChunk_more last]
        exact .more pc last
      · rcases Nat.lt_or_ge rxBufSize (size + info.length.toNat) with tooLong | fits
        · rw [processChunk_truncated last tooLong]
          exact .truncated pc last tooLong
        · rw [processChunk_delivered last fits]
          exact .delivered pc last fits

/-- A hardware status is no overrun. -/
theorem hardware_status_ne (status : UInt8) : status.toNat ≠ exanicRxFrameSwovfl := by
  have := status.toNat_lt
  unfold exanicRxFrameSwovfl
  omega

/-- What the reader copies last is reported as a frame or as too long, never as an
overrun. -/
theorem completed_not_overrun (ring : ℕ → RxChunk) (rxBufSize : ℕ) {chunk size : ℕ}
    {info : RxChunkInfo} (pc : c.pc = .copy chunk info size) (last : info.length ≠ 0) :
    ∃ ret status, (c.step ring rxBufSize).pc = .done ret status ∧
      status ≠ exanicRxFrameSwovfl := by
  rw [step_copy pc]
  by_cases fits : size + info.length.toNat ≤ rxBufSize
  · rw [processChunk_delivered last fits]
    exact ⟨_, _, rfl, hardware_status_ne _⟩
  · rw [processChunk_truncated last (Nat.lt_of_not_le fits)]
    exact ⟨_, _, rfl, by decide⟩

end Steps

end Call

end ExanicCapture.Rx
