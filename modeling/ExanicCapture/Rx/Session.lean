/-
# Rx.Session -- the library's receive calls, mixed as the caller likes

One handle of the library, used through `exanic_receive_frame`, `exanic_receive_chunk`,
`exanic_receive_chunk_ex`, `exanic_receive_chunk_inplace`,
`exanic_receive_chunk_inplace_ex` and `exanic_receive_abort`, in any order, while the
card writes.  As in `Rx.System` a step is one access of the reader to the ring or one
thing the card does.  Here the card writes a chunk in two parts: before the metadata
word is written, the payload of the slot may hold anything (`scribble`).

The calls that copy check a sentinel, the newest chunk whose word was accepted by a
call that copies: as long as its generation stands, nothing behind it was touched.
Generations repeat after 256 laps, and this bounds the card twice.  It stays within 255
laps of the reader's own place (`CanWrite`), whatever the calls are.  And a sentinel is
looked at no more than 254 laps after the last look or catch-up (`Recent`): the calls in
place and `exanic_receive_abort` move the reader and leave the sentinel behind.
`Answers` is what a call does to an abstract cursor, a frame and a chunk of it.
-/
import ExanicCapture.Rx.Hardware
import ExanicCapture.Rx.Library

namespace ExanicCapture.Rx

set_option autoImplicit false

open Theory Theory.LapRing

/-! ## The calls -/

/-- Where a call that copies one chunk stands. -/
inductive ChunkPc where
  | entry
  | copy (chunk : ℕ) (info : RxChunkInfo) (sentinelChunk : ℕ) (sentinelChunkGeneration : UInt8)
  | check (info : RxChunkInfo) (sentinelChunk : ℕ) (sentinelChunkGeneration : UInt8)
  | lapped

/-- Where the program stands.  `ex` tells `exanic_receive_chunk_ex` from
`exanic_receive_chunk`, and likewise for the calls in place. -/
inductive SessionPc where
  | idle
  | frame (rxBufSize : ℕ) (pc : LibPc)
  | chunk (ex : Bool) (pc : ChunkPc)
  | inplace (ex lapped : Bool)
  | abort (lapped : Bool)

/-- A call that returned, and what it stored.  `none` stands for what was left
unchanged. -/
inductive Event where
  | frame (rxBufSize : ℕ) (ret : Int) (data : List UInt8) (timestamp : UInt32)
  | chunk (ex : Bool) (ret : Int) (data : List UInt8) (moreChunks : Option Bool)
      (info : Option RxChunkInfo)
  | inplace (ex : Bool) (ret : Int) (chunkId : Option UInt32) (moreChunks : Option Bool)
      (info : Option RxChunkInfo)
  | abort (ret : Int)

/-- The handle, its ring and the caller's buffer.  The program has no `log`, and no
`checked`: what the card had written when a sentinel was last looked at, or set by a
catch-up. -/
structure Session where
  ring : ℕ → RxChunk
  written : ℕ
  rx : ExanicRx
  rxBuf : ℕ → UInt8
  timestamp : UInt32
  pc : SessionPc
  log : List Event
  checked : ℕ

/-- `exanic_receive_frame` is about to look at its sentinel, or to catch up. -/
def LibPc.checks : LibPc → Bool
  | .check .. | .lapped => true
  | _ => false

/-- The error bits of the frame status. -/
def RxChunkInfo.error (info : RxChunkInfo) : ℕ :=
  (info.frameStatus &&& exanicRxFrameErrorMask).toNat

/-- `rx->generation * EXANIC_RX_NUM_CHUNKS + rx->next_chunk`. -/
def ExanicRx.chunkId (rx : ExanicRx) : UInt32 :=
  rx.generation.toUInt32 * .ofNat exanicRxNumChunks + .ofNat rx.nextChunk

theorem ExanicRx.advance_sentinelChunk (rx : ExanicRx) :
    rx.advance.sentinelChunk = rx.sentinelChunk := by
  unfold ExanicRx.advance
  split <;> rfl

theorem ExanicRx.advance_sentinelChunkGeneration (rx : ExanicRx) :
    rx.advance.sentinelChunkGeneration = rx.sentinelChunkGeneration := by
  unfold ExanicRx.advance
  split <;> rfl

namespace Session

variable (s : Session)

def finish (event : Event) : Session := { s with pc := .idle, log := s.log ++ [event] }

/-- `__exanic_rx_catchup`. -/
def catchup : Session :=
  { s with rx := exanicRxCatchup (fun i => (s.ring i).info) s.rx, checked := s.written }

/-- One access of `exanic_receive_frame`. -/
def frameStep (rxBufSize : ℕ) (pc : LibPc) : Session :=
  let call := LibCall.step s.ring rxBufSize
    { rx := s.rx, rxBuf := s.rxBuf, timestamp := s.timestamp, pc }
  let s :=
    { s with
      rx := call.rx
      rxBuf := call.rxBuf
      timestamp := call.timestamp
      checked := if pc.checks then s.written else s.checked }
  match call.pc with
  | .done ret => s.finish (.frame rxBufSize ret (Memory.front ret.toNat s.rxBuf) s.timestamp)
  | pc => { s with pc := .frame rxBufSize pc }

/-- What `exanic_receive_chunk` and `exanic_receive_chunk_ex` return for a chunk. -/
def chunkEvent (ex : Bool) (info : RxChunkInfo) : Event :=
  if !ex && info.length ≠ 0 && info.error ≠ 0 then .chunk ex (-info.error) [] none none
  else
    .chunk ex info.size (Memory.front info.size s.rxBuf) (some (info.length == 0))
      (if ex then some info else none)

/-- One access of `exanic_receive_chunk` or `exanic_receive_chunk_ex`. -/
def chunkStep (ex : Bool) : ChunkPc → Session
  | .entry =>
      let info := (s.ring s.rx.nextChunk).info
      if info.generation = s.rx.generation then
        -- move the sentinel chunk forward, advance next_chunk to next chunk
        { s with
          rx := ExanicRx.advance
            { s.rx with
              sentinelChunk := s.rx.nextChunk
              sentinelChunkGeneration := info.generation.toUInt32 }
          pc := .chunk ex
            (.copy s.rx.nextChunk info s.rx.sentinelChunk s.rx.sentinelChunkGeneration.toUInt8) }
      else if info.generation = s.rx.generation - 1 then
        -- no new data
        s.finish (.chunk ex 0 [] none none)
      else { s with pc := .chunk ex .lapped }
  | .copy chunk info sentinelChunk sentinelChunkGeneration =>
      { s with
        rxBuf := Memory.copy s.rxBuf 0 (payloadBytes (s.ring chunk).payload info.length)
        pc := .chunk ex (.check info sentinelChunk sentinelChunkGeneration) }
  | .check info sentinelChunk sentinelChunkGeneration =>
      let s := { s with checked := s.written }
      if (s.ring sentinelChunk).info.generation ≠ sentinelChunkGeneration then
        { s with pc := .chunk ex .lapped }
      else s.finish (s.chunkEvent ex info)
  | .lapped => s.catchup.finish (.chunk ex (-exanicRxFrameSwovfl) [] none none)

/-- What the calls in place return for a chunk. -/
def inplaceEvent (ex : Bool) (info : RxChunkInfo) : Event :=
  if !ex && info.length ≠ 0 && info.error ≠ 0 then
    .inplace ex (-info.error) (some s.rx.chunkId) none none
  else
    .inplace ex info.size (some s.rx.chunkId) (some (info.length == 0))
      (if ex then some info else none)

/-- One access of `exanic_receive_chunk_inplace` or `exanic_receive_chunk_inplace_ex`. -/
def inplaceStep (ex lapped : Bool) : Session :=
  if lapped then s.catchup.finish (.inplace ex (-exanicRxFrameSwovfl) none none none)
  else
    let info := (s.ring s.rx.nextChunk).info
    if info.generation = s.rx.generation then
      Session.finish { s with rx := s.rx.advance } (s.inplaceEvent ex info)
    else if info.generation = s.rx.generation - 1 then
      -- no new data
      s.finish (.inplace ex 0 none none none)
    else { s with pc := .inplace ex true }

/-- One access of `exanic_receive_abort`. -/
def abortStep (lapped : Bool) : Session :=
  if lapped then s.catchup.finish (.abort (-exanicRxFrameSwovfl))
  else
    let info := (s.ring s.rx.nextChunk).info
    if info.generation = s.rx.generation then
      if info.length ≠ 0 then Session.finish { s with rx := s.rx.advance } (.abort (-info.error))
      else { s with rx := s.rx.advance }
    else if info.generation ≠ s.rx.generation - 1 then { s with pc := .abort true }
    else s

/-- The next access of the call in progress. -/
def read : Session :=
  match s.pc with
  | .idle => s
  | .frame rxBufSize pc => s.frameStep rxBufSize pc
  | .chunk ex pc => s.chunkStep ex pc
  | .inplace ex lapped => s.inplaceStep ex lapped
  | .abort lapped => s.abortStep lapped

/-! ## The card -/

/-- The card writes into the payload of its next slot. -/
def scribble (payload : Vector UInt8 exanicRxChunkPayloadSize) : Session :=
  { s with
    ring := Function.update s.ring (s.written % exanicRxNumChunks)
      { s.ring (s.written % exanicRxNumChunks) with payload } }

/-- The card writes its next chunk, the metadata word last. -/
def write (hw : Hardware) : Session :=
  { s with ring := hw.writeChunk s.ring s.written, written := s.written + 1 }

/-- The reader stands at chunk `q`, and the card is at most 255 laps ahead of it.
Chunk `q` is entry `q + EXANIC_RX_NUM_CHUNKS` of the ring. -/
structure Stands (hw : Hardware) (q : ℕ) : Prop where
  names : s.rx.StandsAt hw.stamp (q + exanicRxNumChunks)
  reached : q ≤ s.written
  bounded : s.written ≤ q + 255 * exanicRxNumChunks

/-- The card keeps within 255 laps of the reader. -/
def CanWrite (hw : Hardware) : Prop :=
  ∀ q, s.Stands hw q → s.written < q + 255 * exanicRxNumChunks

/-- If the next access looks at a sentinel, the last one did so, or a catch-up set the
sentinel, at most 254 laps ago. -/
def Recent : Prop :=
  match s.pc with
  | .frame _ (.check ..) | .chunk _ (.check ..) =>
      s.written ≤ s.checked + 254 * exanicRxNumChunks
  | _ => True

/-- The calls a program can make.  `exanic_receive_frame` comes with the size of its
buffer. -/
inductive Starts : SessionPc → Prop where
  | frame (rxBufSize : ℕ) : Starts (.frame rxBufSize .entry)
  | chunk (ex : Bool) : Starts (.chunk ex .entry)
  | inplace (ex : Bool) : Starts (.inplace ex false)
  | abort : Starts (.abort false)

end Session

/-- One step of the card or of the reader. -/
inductive SessionStep (hw : Hardware) : Session → Session → Prop where
  | scribble {s : Session} (payload : Vector UInt8 exanicRxChunkPayloadSize) :
      SessionStep hw s (s.scribble payload)
  | write {s : Session} (room : s.CanWrite hw) : SessionStep hw s (s.write hw)
  | call {s : Session} {pc : SessionPc} (idle : s.pc = .idle) (starts : Session.Starts pc) :
      SessionStep hw s { s with pc }
  | read {s : Session} (recent : s.Recent) : SessionStep hw s s.read

/-! ## The abstract reader -/

/-- A frame and a chunk of it. -/
structure Cursor where
  frame : ℕ
  chunk : ℕ

def Cursor.nextFrame (c : Cursor) : Cursor := ⟨c.frame + 1, 0⟩

namespace Hardware

variable (hw : Hardware) (c : Cursor)

/-- The number of the chunk. -/
def position : ℕ := hw.start c.frame + c.chunk

/-- The chunk is not the last one of its frame. -/
def More : Prop := c.chunk < (hw.frame c.frame).body.length

instance : Decidable (hw.More c) := by
  unfold More
  infer_instance

/-- What is left of the frame. -/
def rest : List UInt8 := ((hw.frame c.frame).chunks.drop c.chunk).flatMap HwChunk.bytes

/-- The word of the chunk, as it stands in the ring. -/
def word : RxChunkInfo := (hw.chunk (hw.position c)).info

/-- The bytes of the chunk. -/
def data : List UInt8 := (hw.stream.entry (hw.position c)).bytes

/-- The error bits of the frame. -/
def error : ℕ := (hw.frame c.frame).status

/-- The name the calls in place give to the chunk. -/
def chunkId : UInt32 :=
  (hw.generation (hw.position c)).toUInt32 * .ofNat exanicRxNumChunks +
    .ofNat (hw.position c % exanicRxNumChunks)

def nextChunk : Cursor := if hw.More c then ⟨c.frame, c.chunk + 1⟩ else c.nextFrame

end Hardware

/-- The call found nothing new. -/
inductive Event.Nothing : Event → Prop where
  | frame (rxBufSize : ℕ) (timestamp : UInt32) : Nothing (.frame rxBufSize 0 [] timestamp)
  | chunk (ex : Bool) : Nothing (.chunk ex 0 [] none none)
  | inplace (ex : Bool) : Nothing (.inplace ex 0 none none none)

/-- The call reports that chunks were missed. -/
inductive Event.Overrun : Event → Prop where
  | frame (rxBufSize : ℕ) (timestamp : UInt32) :
      Overrun (.frame rxBufSize (-exanicRxFrameSwovfl) [] timestamp)
  | chunk (ex : Bool) : Overrun (.chunk ex (-exanicRxFrameSwovfl) [] none none)
  | inplace (ex : Bool) : Overrun (.inplace ex (-exanicRxFrameSwovfl) none none none)
  | abort : Overrun (.abort (-exanicRxFrameSwovfl))

/-- What one call does: where the reader stood, what was returned, where it stands
now. -/
inductive Answers (hw : Hardware) (c : Cursor) : Event → Cursor → Prop where
  | nothing {e : Event} (nothing : e.Nothing) : Answers hw c e c
  | frame {rxBufSize : ℕ} (fits : (hw.rest c).length ≤ rxBufSize) (clean : hw.error c = 0) :
      Answers hw c
        (.frame rxBufSize (hw.rest c).length (hw.rest c) (hw.frame c.frame).last.timestamp)
        c.nextFrame
  | frameDamaged {rxBufSize : ℕ} (fits : (hw.rest c).length ≤ rxBufSize)
      (damaged : hw.error c ≠ 0) :
      Answers hw c (.frame rxBufSize (-hw.error c) [] (hw.frame c.frame).last.timestamp)
        c.nextFrame
  | frameTooLong {rxBufSize : ℕ} {timestamp : UInt32} (tooLong : rxBufSize < (hw.rest c).length) :
      Answers hw c (.frame rxBufSize (-exanicRxFrameTruncated) [] timestamp)
        c.nextFrame
  | chunk {ex : Bool} (accepted : ex = true ∨ hw.More c ∨ hw.error c = 0) :
      Answers hw c
        (.chunk ex (hw.data c).length (hw.data c) (some (hw.More c))
          (if ex then some (hw.word c) else none))
        (hw.nextChunk c)
  | chunkDamaged (last : ¬ hw.More c) (damaged : hw.error c ≠ 0) :
      Answers hw c (.chunk false (-hw.error c) [] none none) c.nextFrame
  | inplace {ex : Bool} (accepted : ex = true ∨ hw.More c ∨ hw.error c = 0) :
      Answers hw c
        (.inplace ex (hw.data c).length (some (hw.chunkId c)) (some (hw.More c))
          (if ex then some (hw.word c) else none))
        (hw.nextChunk c)
  | inplaceDamaged (last : ¬ hw.More c) (damaged : hw.error c ≠ 0) :
      Answers hw c (.inplace false (-hw.error c) (some (hw.chunkId c)) none none)
        c.nextFrame
  | abort : Answers hw c (.abort (-hw.error c)) c.nextFrame
  | overrun {e : Event} {frame : ℕ} (overrun : e.Overrun) (ahead : c.frame ≤ frame) :
      Answers hw c e ⟨frame, 0⟩

/-- The log of a run that started at frame `first` is the work of the abstract reader. -/
inductive Answered (hw : Hardware) (first : ℕ) : List Event → Cursor → Prop where
  | start : Answered hw first [] ⟨first, 0⟩
  | call {log : List Event} {c c' : Cursor} {e : Event} (before : Answered hw first log c)
      (answers : Answers hw c e c') : Answered hw first (log ++ [e]) c'

/-- The runs start behind the catch-up of `exanic_acquire_rx_buffer`. -/
structure Session.Initial (hw : Hardware) (first : ℕ) (s : Session) : Prop where
  ring : s.ring = hw.ringAfter s.written
  stands : s.Stands hw (hw.start first)
  sentinelChunk : s.rx.sentinelChunk =
    (hw.start first + exanicRxNumChunks - 1) % exanicRxNumChunks
  sentinelChunkGeneration : s.rx.sentinelChunkGeneration.toUInt8 =
    hw.stamp ((hw.start first + exanicRxNumChunks - 1) / exanicRxNumChunks)
  checked : s.checked < hw.start first + exanicRxNumChunks
  idle : s.pc = .idle
  log : s.log = []

end ExanicCapture.Rx
