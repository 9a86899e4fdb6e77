/-
# Rx.Reassembly -- one frame through one call, for every buffer size

A complete frame stands in the ring at the reader's position: `body` full chunks
and a last one of 1 to 120 bytes.  Chunks that do not fit the caller's buffer are
skipped but counted, and only the last chunk decides between the frame's length
and `EXANIC_RX_FRAME_TRUNCATED`.

`run_gathered` is the invariant of the chunk loop: after `j` chunks the call has
counted `120 * j` bytes, stands `j` chunks further, and holds the bytes of those
chunks if they fit.  `step_stores` bounds what one access may store, whatever the
ring holds.
-/
import ExanicCapture.Rx.ReceiveFrame

namespace ExanicCapture.Rx

set_option autoImplicit false

open Theory

/-! ## The reader, some chunks further -/

/-- The handle after `j` chunks. -/
def ExanicRx.ahead (rx : ExanicRx) : ℕ → ExanicRx
  | 0 => rx
  | j + 1 => (rx.ahead j).advance

theorem ExanicRx.ahead_stands {rx : ExanicRx} (inside : rx.nextChunk < exanicRxNumChunks) (j : ℕ) :
    (rx.ahead j).StandsAt (fun lap => rx.generation + UInt8.ofNat lap) (rx.nextChunk + j) := by
  induction j with
  | zero =>
      refine ⟨(Nat.mod_eq_of_lt inside).symm, ?_⟩
      rw [Nat.add_zero, Nat.div_eq_of_lt inside]
      exact (UInt8.add_zero _).symm
  | succ j ih =>
      apply ih.advance
      intro lap
      rw [UInt8.ofNat_add, UInt8.add_assoc]
      rfl

/-! ## A complete frame -/

section Frame

variable (ring : ℕ → RxChunk) (rx : ExanicRx)

/-- The `j`-th chunk from the reader's position on. -/
def chunkAhead (j : ℕ) : RxChunk := ring (rx.ahead j).nextChunk

/-- The ring holds a complete frame at the reader's position. -/
structure CompleteFrame (body : ℕ) : Prop where
  expected : ∀ j ≤ body, (chunkAhead ring rx j).info.generation = (rx.ahead j).generation
  more : ∀ j < body, (chunkAhead ring rx j).info.length = 0
  last : (chunkAhead ring rx body).info.length ≠ 0
  short : (chunkAhead ring rx body).info.length.toNat ≤ exanicRxChunkPayloadSize

/-- The payloads of the first `count` chunks, one behind the other. -/
def bytesAhead (count : ℕ) : List UInt8 :=
  (List.range count).flatMap fun j =>
    payloadBytes (chunkAhead ring rx j).payload (chunkAhead ring rx j).info.length

variable {ring rx}

theorem bytesAhead_succ (count : ℕ) :
    bytesAhead ring rx (count + 1) = bytesAhead ring rx count ++
      payloadBytes (chunkAhead ring rx count).payload (chunkAhead ring rx count).info.length := by
  simp [bytesAhead, List.range_succ]

theorem CompleteFrame.bytes_body {body : ℕ} (complete : CompleteFrame ring rx body) {j : ℕ}
    (inside : j ≤ body) : (bytesAhead ring rx j).length = exanicRxChunkPayloadSize * j := by
  induction j with
  | zero => rfl
  | succ j ih =>
      rw [bytesAhead_succ, List.length_append, ih (by omega), complete.more j inside,
        payloadBytes_full, Vector.length_toList, Nat.mul_add, Nat.mul_one]

theorem CompleteFrame.bytes_length {body : ℕ} (complete : CompleteFrame ring rx body) :
    (bytesAhead ring rx (body + 1)).length =
      exanicRxChunkPayloadSize * body + (chunkAhead ring rx body).info.length.toNat := by
  rw [bytesAhead_succ, List.length_append, complete.bytes_body le_rfl,
    payloadBytes_length complete.last complete.short]

end Frame

namespace Call

/-! ## What one access may store -/

/-- **No access stores outside the caller's buffer.** -/
theorem step_stores (ring : ℕ → RxChunk) (rxBufSize : ℕ) (c : Call) :
    Memory.StoresBelow rxBufSize c.rxBuf (c.step ring rxBufSize).rxBuf := by
  have access := c.step_access ring rxBufSize
  generalize c.step ring rxBufSize = next at access ⊢
  cases access with
  | stays => exact Or.inl rfl
  | accepts size => exact Or.inl rfl
  | idle pc => exact Or.inl rfl
  | laps => exact Or.inl rfl
  | scans pc => exact Or.inl rfl
  | truncated pc last tooLong => exact Or.inl rfl
  | @more chunk size info pc more =>
      by_cases fits : size + exanicRxChunkPayloadSize ≤ rxBufSize
      · right
        refine ⟨size, payloadBytes (ring chunk).payload info.length, ?_, if_pos fits⟩
        simpa [more, payloadBytes_full] using fits
      · left
        exact if_neg fits
  | @delivered chunk size info pc last fits =>
      right
      refine ⟨size, payloadBytes (ring chunk).payload info.length, ?_, rfl⟩
      have taken : (payloadBytes (ring chunk).payload info.length).length ≤
          info.length.toNat := by
        simp only [payloadBytes, last, if_false]
        exact List.length_take_le _ _
      omega

/-! ## The chunk loop -/

/-- Before the loop the call waits at `entry`, inside it at `spin`. -/
def awaiting (size : ℕ) : Pc :=
  if size = 0 then .entry else .spin size

theorem step_awaiting {ring : ℕ → RxChunk} {rxBufSize size : ℕ} {c : Call}
    (pc : c.pc = awaiting size) (lap : (ring c.rx.nextChunk).info.generation = c.rx.generation) :
    c.step ring rxBufSize = c.accept (ring c.rx.nextChunk).info size := by
  unfold awaiting at pc
  split at pc
  · rename_i first
    rw [first]
    exact step_entry_accept pc lap
  · exact step_spin_accept pc lap

section Loop

variable {rings : ℕ → ℕ → RxChunk} {ring : ℕ → RxChunk} {rxBufSize : ℕ} {c : Call} {body : ℕ}

/-- The call has gone through the first `j` chunks of the frame. -/
structure Gathered (ring : ℕ → RxChunk) (rxBufSize : ℕ) (rx : ExanicRx) (j : ℕ) (c : Call) :
    Prop where
  stands : c.rx = rx.ahead j
  counted : c.pc = awaiting (exanicRxChunkPayloadSize * j)
  held : exanicRxChunkPayloadSize * j ≤ rxBufSize →
    Memory.front (exanicRxChunkPayloadSize * j) c.rxBuf = bytesAhead ring rx j

/-- One more full chunk: its word, then its payload. -/
theorem Gathered.more {rx : ExanicRx} {j : ℕ} (gathered : Gathered ring rxBufSize rx j c)
    (complete : CompleteFrame ring rx body) (inside : j < body) {first second : ℕ → RxChunk}
    (loaded : first (rx.ahead j).nextChunk = chunkAhead ring rx j)
    (copied : second (rx.ahead j).nextChunk = chunkAhead ring rx j) :
    Gathered ring rxBufSize rx (j + 1) ((c.step first rxBufSize).step second rxBufSize) := by
  have slot : c.rx.nextChunk = (rx.ahead j).nextChunk := by rw [gathered.stands]
  have lap : (first c.rx.nextChunk).info.generation = c.rx.generation := by
    rw [slot, loaded, complete.expected j (by omega), gathered.stands]
  have more := complete.more j inside
  rw [step_awaiting gathered.counted lap, slot, loaded, step_copy rfl, processChunk_more more]
  refine ⟨?_, ?_, fun fits => ?_⟩
  · show c.rx.advance = _
    rw [gathered.stands]
    rfl
  · have counted : exanicRxChunkPayloadSize * (j + 1) ≠ 0 :=
      Nat.mul_ne_zero (by decide) j.succ_ne_zero
    show Pc.spin (exanicRxChunkPayloadSize * j + exanicRxChunkPayloadSize) = awaiting _
    rw [awaiting, if_neg counted, Nat.mul_add, Nat.mul_one]
  · rw [Nat.mul_add, Nat.mul_one] at fits ⊢
    show Memory.front _ (if _ then _ else _) = _
    rw [if_pos fits]
    show Memory.front _ (Memory.copy c.rxBuf _ (payloadBytes (second c.rx.nextChunk).payload _)) = _
    rw [slot, copied, Memory.front_copy _ _ (by simp [more, payloadBytes_full]),
      gathered.held (by omega), bytesAhead_succ]

/-- **The invariant of the chunk loop.** -/
theorem run_gathered (entry : c.pc = .entry) (complete : CompleteFrame ring c.rx body)
    (still : ∀ k, ∀ j ≤ body, rings k (c.rx.ahead j).nextChunk = chunkAhead ring c.rx j)
    {j : ℕ} (inside : j ≤ body) :
    Gathered ring rxBufSize c.rx j (c.run rings rxBufSize (2 * j)) := by
  induction j with
  | zero => exact ⟨rfl, entry, fun _ => rfl⟩
  | succ j ih =>
      exact (ih (by omega)).more complete inside (still _ j (by omega)) (still _ j (by omega))

/-- What the call comes to when it has gone through the whole frame. -/
structure Consumed (ring : ℕ → RxChunk) (rxBufSize body : ℕ) (before after : Call) : Prop where
  returned : after.pc =
    if (bytesAhead ring before.rx (body + 1)).length ≤ rxBufSize then
      .done (bytesAhead ring before.rx (body + 1)).length
        ((chunkAhead ring before.rx body).info.frameStatus &&& exanicRxFrameErrorMask).toNat
    else .done (-1) exanicRxFrameTruncated
  delivered : (bytesAhead ring before.rx (body + 1)).length ≤ rxBufSize →
    Memory.front (bytesAhead ring before.rx (body + 1)).length after.rxBuf =
        bytesAhead ring before.rx (body + 1) ∧
      after.timestamp = (chunkAhead ring before.rx body).info.timestamp
  slot : after.rx.nextChunk = (before.rx.nextChunk + (body + 1)) % exanicRxNumChunks
  lap : after.rx.generation =
    before.rx.generation + UInt8.ofNat ((before.rx.nextChunk + (body + 1)) / exanicRxNumChunks)

/-- The last chunk: its word, then the decision. -/
theorem Gathered.last {start : Call} (inside : start.rx.nextChunk < exanicRxNumChunks)
    (gathered : Gathered ring rxBufSize start.rx body c)
    (complete : CompleteFrame ring start.rx body) {first second : ℕ → RxChunk}
    (loaded : first (start.rx.ahead body).nextChunk = chunkAhead ring start.rx body)
    (copied : second (start.rx.ahead body).nextChunk = chunkAhead ring start.rx body) :
    Consumed ring rxBufSize body start ((c.step first rxBufSize).step second rxBufSize) := by
  have slot : c.rx.nextChunk = (start.rx.ahead body).nextChunk := by rw [gathered.stands]
  have lap : (first c.rx.nextChunk).info.generation = c.rx.generation := by
    rw [slot, loaded, complete.expected body le_rfl, gathered.stands]
  have stands : c.rx.advance = start.rx.ahead (body + 1) := by
    rw [gathered.stands]
    rfl
  have ahead := ExanicRx.ahead_stands inside (body + 1)
  rw [step_awaiting gathered.counted lap, slot, loaded, step_copy rfl]
  rcases Nat.lt_or_ge rxBufSize (bytesAhead ring start.rx (body + 1)).length with tooLong | fits
  · have refused := not_le.2 tooLong
    rw [complete.bytes_length] at tooLong
    rw [processChunk_truncated complete.last tooLong]
    refine ⟨by rw [if_neg refused], fun fits => absurd fits refused, ?_, ?_⟩
    · show c.rx.advance.nextChunk = _
      rw [stands, ahead.1]
    · show c.rx.advance.generation = _
      rw [stands, ahead.2]
  · have room := fits
    rw [complete.bytes_length] at room
    have full : (payloadBytes (second c.rx.nextChunk).payload
        (chunkAhead ring start.rx body).info.length).length =
          (chunkAhead ring start.rx body).info.length.toNat :=
      payloadBytes_length complete.last complete.short
    rw [processChunk_delivered complete.last room]
    refine ⟨?_, fun _ => ⟨?_, rfl⟩, ?_, ?_⟩
    · rw [if_pos fits, complete.bytes_length]
    · show Memory.front _ (Memory.copy c.rxBuf _
        (payloadBytes (second c.rx.nextChunk).payload _)) = _
      rw [complete.bytes_length, Memory.front_copy _ _ full, slot, copied,
        gathered.held (by omega), bytesAhead_succ]
    · show c.rx.advance.nextChunk = _
      rw [stands, ahead.1]
    · show c.rx.advance.generation = _
      rw [stands, ahead.2]

end Loop

end Call

/-- **A complete frame goes through one call, whatever the size of the buffer.**
After one load and one copy for each of its chunks the call has returned the
frame's length with the frame in the buffer, or `EXANIC_RX_FRAME_TRUNCATED` if the
buffer is too small, and the reader stands right behind the frame; and no access
of the call stores outside the buffer. -/
theorem receiveFrameEx_reassembles {rings : ℕ → ℕ → RxChunk} {ring : ℕ → RxChunk} {c : Call}
    {body : ℕ} (rxBufSize : ℕ) (entry : c.pc = .entry)
    (inside : c.rx.nextChunk < exanicRxNumChunks) (complete : CompleteFrame ring c.rx body)
    (still : ∀ k, ∀ j ≤ body, rings k (c.rx.ahead j).nextChunk = chunkAhead ring c.rx j) :
    Call.Consumed ring rxBufSize body c (c.run rings rxBufSize (2 * (body + 1))) ∧
      ∀ k, Memory.StoresBelow rxBufSize (c.run rings rxBufSize k).rxBuf
        (c.run rings rxBufSize (k + 1)).rxBuf := by
  constructor
  · apply (Call.run_gathered entry complete still le_rfl).last inside complete
    · exact still _ body le_rfl
    · exact still _ body le_rfl
  · intro k
    exact Call.step_stores _ _ _

/-! ## Poles: a frame of two chunks across the end of the ring -/

namespace Poles

/-- A full chunk in the last slot and one more byte in the first. -/
def crossing : ℕ → RxChunk := fun slot =>
  if slot = 0 then
    { payload := Vector.replicate _ 2
      info := { timestamp := 7, frameStatus := 0, length := 1, matchedFilter := 0
                generation := 0 } }
  else
    { payload := Vector.replicate _ 1
      info := { timestamp := 0, frameStatus := 0, length := 0, matchedFilter := 0
                generation := 255 } }

/-- The reader stands at the last slot of generation 255. -/
def atEnd : Call :=
  { rx := { nextChunk := 16383, generation := 255, sentinelChunk := 0
            sentinelChunkGeneration := 0 }
    rxBuf := fun _ => 0, timestamp := 0, pc := .entry }

theorem crossing_complete : CompleteFrame crossing atEnd.rx 1 where
  expected := by decide
  more := by decide
  last := by decide
  short := by decide

theorem receiveFrameEx_reassembles_crossing :
    (atEnd.run (fun _ => crossing) 121 4).pc = .done 121 0 ∧
      (atEnd.run (fun _ => crossing) 120 4).pc = .done (-1) exanicRxFrameTruncated ∧
      (atEnd.run (fun _ => crossing) 120 4).rx.nextChunk = 1 := by
  have consumed : ∀ size,
      Call.Consumed crossing size 1 atEnd (atEnd.run (fun _ => crossing) size 4) :=
    fun size => (receiveFrameEx_reassembles size rfl (by decide) crossing_complete
      fun _ _ _ => rfl).1
  have length : (bytesAhead crossing atEnd.rx (1 + 1)).length = 121 := by
    rw [crossing_complete.bytes_length]
    decide
  refine ⟨?_, ?_, ?_⟩
  · rw [(consumed 121).returned, length, if_pos le_rfl]
    decide
  · rw [(consumed 120).returned, length, if_neg (by decide)]
  · rw [(consumed 120).slot]
    decide

end Poles

end ExanicCapture.Rx
