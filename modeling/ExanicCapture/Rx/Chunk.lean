/-
# Rx.Chunk -- the receive ring and the reader's handle

The data of `fifo_if.h` and `fifo_rx.h` that the receive path touches: the
metadata word of a chunk, the chunk, the status codes, and of `exanic_rx_t` the
fields that say where the reader stands.  `next_chunk` is a natural number: it
is always below `EXANIC_RX_NUM_CHUNKS`, so the 32-bit increment never wraps.  The
generation is the code's own 8-bit counter and does wrap.
-/
import Mathlib.Data.List.Basic

namespace ExanicCapture.Rx

set_option autoImplicit false

/-! ## Constants of `pcie_if.h` -/

/-- `PAGE_SIZE`. -/
def pageSize : ℕ := 4096

/-- `EXANIC_RX_CHUNK_SIZE`: a chunk with its metadata. -/
def exanicRxChunkSize : ℕ := 128

/-- `EXANIC_RX_CHUNK_PAYLOAD_SIZE`: a chunk without its metadata. -/
def exanicRxChunkPayloadSize : ℕ := 120

/-- `EXANIC_RX_DMA_NUM_PAGES`. -/
def exanicRxDmaNumPages : ℕ := 512

/-- `EXANIC_RX_NUM_CHUNKS`. -/
def exanicRxNumChunks : ℕ := exanicRxDmaNumPages * pageSize / exanicRxChunkSize

theorem exanicRxNumChunks_pos : 0 < exanicRxNumChunks := by decide

/-! ## Status codes -/

/-- `EXANIC_RX_FRAME_OK`. -/
def exanicRxFrameOk : ℕ := 0
/-- `EXANIC_RX_FRAME_ABORTED`. -/
def exanicRxFrameAborted : ℕ := 1
/-- `EXANIC_RX_FRAME_CORRUPT`. -/
def exanicRxFrameCorrupt : ℕ := 2
/-- `EXANIC_RX_FRAME_HWOVFL`. -/
def exanicRxFrameHwovfl : ℕ := 3
/-- `EXANIC_RX_FRAME_SWOVFL`. -/
def exanicRxFrameSwovfl : ℕ := 256
/-- `EXANIC_RX_FRAME_TRUNCATED`. -/
def exanicRxFrameTruncated : ℕ := 257

/-- `EXANIC_RX_FRAME_ERROR_MASK`. -/
def exanicRxFrameErrorMask : UInt8 := 0x0F

/-! ## Chunks -/

/-- `struct rx_chunk_info`, the 8-byte metadata word the hardware writes with a
chunk.  The reader loads it in one access. -/
structure RxChunkInfo where
  timestamp : UInt32
  frameStatus : UInt8
  length : UInt8
  matchedFilter : UInt8
  generation : UInt8
deriving DecidableEq

/-- How much of the payload belongs to the frame. -/
def RxChunkInfo.size (info : RxChunkInfo) : ℕ :=
  if info.length = 0 then exanicRxChunkPayloadSize else info.length.toNat

/-- `struct rx_chunk`. -/
structure RxChunk where
  payload : Vector UInt8 exanicRxChunkPayloadSize
  info : RxChunkInfo
deriving DecidableEq

/-- The first `length` bytes of a chunk's payload, or all of them when `length`
is 0 ("the entire payload is full, with more chunks to come"). -/
def payloadBytes (payload : Vector UInt8 exanicRxChunkPayloadSize) (length : UInt8) :
    List UInt8 :=
  if length = 0 then payload.toList else payload.toList.take length.toNat

theorem payloadBytes_full (payload : Vector UInt8 exanicRxChunkPayloadSize) :
    payloadBytes payload 0 = payload.toList := rfl

theorem payloadBytes_length {payload : Vector UInt8 exanicRxChunkPayloadSize} {length : UInt8}
    (last : length ≠ 0) (fits : length.toNat ≤ exanicRxChunkPayloadSize) :
    (payloadBytes payload length).length = length.toNat := by
  simp [payloadBytes, last, fits]

/-! ## The reader's handle -/

/-- The reader's position in `exanic_rx_t`. -/
structure ExanicRx where
  nextChunk : ℕ
  generation : UInt8
  sentinelChunk : ℕ
  sentinelChunkGeneration : UInt32
deriving DecidableEq

/-- `next_chunk++`, and at the end of the ring back to slot 0 in the next
generation. -/
def ExanicRx.advance (rx : ExanicRx) : ExanicRx :=
  if rx.nextChunk + 1 = exanicRxNumChunks then
    { rx with nextChunk := 0, generation := rx.generation + 1 }
  else { rx with nextChunk := rx.nextChunk + 1 }

end ExanicCapture.Rx
