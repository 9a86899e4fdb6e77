/-
# Tx.Buffer -- the transmit buffer and its handle

The data of `fifo_if.h` and `fifo_tx.c` that the transmit path touches, and the
functions of `fifo_tx.c` that decide where a chunk goes: `exanic_prepare_tx_chunk`,
one iteration of its loops at a time, and the bookkeeping of
`exanic_send_tx_chunk`.

The buffer is a ring of bytes.  Chunks are numbered from 1; the code keeps the low
16 bits of each number.  `feedback_seq` is the newest chunk the card is known to be
done with, `request_seq` the newest that was sent with a feedback request, and
`rollover_seq` the first of the current lap.  `feedback_offsets` remembers where a
chunk ends, one slot for each of the last `queue_len` chunks.
-/
import ExanicCapture.Rx.Chunk
import ExanicCapture.Theory.ByteOrder
import ExanicCapture.Theory.Memory
import ExanicCapture.Theory.Smear

namespace ExanicCapture.Tx

set_option autoImplicit false

open Theory Rx

/-! ## Constants -/

/-- `sizeof(struct tx_chunk)`: a chunk without its payload. -/
def sizeofTxChunk : ℕ := 8

/-- `DEFAULT_TX_BUFFER_SIZE`. -/
def defaultTxBufferSize : ℕ := 0x1000

/-- `FEEDBACK_INTERVAL`. -/
def feedbackInterval : ℕ := 512

/-- `EXANIC_TX_CMD_FIFO_SIZE_DIVISOR`. -/
def exanicTxCmdFifoSizeDivisor : ℕ := 512

/-- `EXANIC_TX_REGION_MAX_NUM_PAGES`. -/
def exanicTxRegionMaxNumPages : ℕ := 512

/-- `EXANIC_TX_TYPE_RAW`. -/
def exanicTxTypeRaw : UInt8 := 0x01

/-- `EXANIC_TX_TYPE_TCP_ACCEL`. -/
def exanicTxTypeTcpAccel : UInt8 := 0x02

/-- `exanic_payload_padding_bytes`. -/
def exanicPayloadPaddingBytes (type : UInt8) : ℕ :=
  if type = exanicTxTypeRaw ∨ type = exanicTxTypeTcpAccel then 2 else 0

/-- `CACHE_ALIGN`. -/
def cacheAlign (x : ℕ) : ℕ := (x + 63) / 64 * 64

/-- `round_down_pow2`. -/
def roundDownPow2 (n : ℕ) : ℕ :=
  let n := n ||| n >>> 1
  let n := n ||| n >>> 2
  let n := n ||| n >>> 4
  let n := n ||| n >>> 8
  let n := n ||| n >>> 16
  (n >>> 1) + 1

/-- `a - b` of two `size_t`. -/
def sizeSub (a b : ℕ) : ℕ := (a + 2 ^ 64 - b) % 2 ^ 64

/-! ## The handle -/

/-- The region of the card's transmit memory that the driver gives a handle: whole
pages, no more than the card has. -/
structure Region where
  offset : ℕ
  size : ℕ
  feedbackSlot : UInt8
  pages : pageSize ∣ size
  positive : 0 < size
  size_le : size ≤ exanicTxRegionMaxNumPages * pageSize

/-- `exanic_tx_t`.  Slots of the feedback region are numbered below
`EXANIC_TX_FEEDBACK_NUM_SLOTS`, that is with 8 bits. -/
structure ExanicTx where
  feedbackSlot : UInt8
  bufferOffset : ℕ
  bufferSize : ℕ
  nextOffset : ℕ
  feedbackSeq : UInt16
  requestSeq : UInt16
  rolloverSeq : UInt16
  nextSeq : UInt16
  queueLen : ℕ
  feedbackOffsets : ℕ → ℕ
  /-- The chunk being prepared and the size it was prepared for. -/
  preparedChunk : Option ℕ
  preparedChunkSize : ℕ
  needFeedback : Bool

/-- The handle that `exanic_acquire_tx_buffer` returns. -/
def Region.exanicTx (r : Region) : ExanicTx where
  feedbackSlot := r.feedbackSlot
  bufferOffset := r.offset
  bufferSize := r.size
  nextOffset := 0
  feedbackSeq := 0
  requestSeq := 0
  rolloverSeq := 1
  nextSeq := 1
  queueLen := roundDownPow2 (r.size / exanicTxCmdFifoSizeDivisor)
  feedbackOffsets i := if i = 0 then r.size else 0
  preparedChunk := none
  preparedChunkSize := 0
  needFeedback := false

theorem or_and_absorb (x y : UInt16) : (x ||| y) &&& y = y := by
  apply UInt16.toBitVec_inj.1
  ext i inside
  simp only [UInt16.toBitVec_and, UInt16.toBitVec_or, BitVec.getElem_and, BitVec.getElem_or]
  cases y.toBitVec[i] <;> simp

/-- A slot number leaves the MSB clear. -/
theorem toUInt16_and_msb (slot : UInt8) : slot.toUInt16 &&& 0x8000 = 0 := by
  apply UInt16.toNat_inj.1
  have small := slot.toNat_lt
  rw [UInt16.toNat_and, UInt8.toNat_toUInt16, show (0x8000 : UInt16).toNat = 2 ^ 15 from rfl]
  refine Nat.eq_of_testBit_eq fun i => ?_
  rw [Nat.testBit_and, Nat.testBit_two_pow]
  by_cases top : 15 = i
  · rw [← top, Nat.testBit_lt_two_pow (by omega)]
    rfl
  · simp [top]

namespace ExanicTx

variable (tx : ExanicTx)

/-- `feedback_offsets[seq & (queue_len - 1)]`. -/
def offsetOf (seq : UInt16) : ℕ := tx.feedbackOffsets (seq.toNat &&& (tx.queueLen - 1))

/-- `exanic_max_tx_chunk_size`. -/
def exanicMaxTxChunkSize : ℕ := tx.bufferSize / 2 - feedbackInterval

/-- `exanic_get_tx_mtu`. -/
def exanicGetTxMtu : ℕ :=
  tx.exanicMaxTxChunkSize - exanicPayloadPaddingBytes exanicTxTypeRaw - sizeofTxChunk

/-- `exanic_update_tx_feedback`, given the value of the feedback slot: the handle, the
value the slot has afterwards, and whether the function returns 0. -/
def exanicUpdateTxFeedback (slot : UInt16) : ExanicTx × UInt16 × Bool :=
  if (tx.nextSeq - slot).toNat ≤ tx.queueLen then
    ({ tx with feedbackSeq := slot }, slot, true)
  else ({ tx with feedbackSeq := tx.nextSeq - 1 }, tx.nextSeq - 1, false)

/-! ### `exanic_prepare_tx_chunk` -/

/-- The first loop goes on spinning. -/
def outOfSequenceNumbers : Prop := tx.queueLen ≤ (tx.nextSeq - tx.feedbackSeq).toNat

instance : Decidable tx.outOfSequenceNumbers := by
  unfold outOfSequenceNumbers
  infer_instance

/-- What one iteration of the second loop finds. -/
inductive Space where
  | available
  | tooLarge
  | wait
deriving DecidableEq

/-- "Available space is between next_offset and feedback_offset". -/
def behindFeedback (aligned : ℕ) : Space :=
  if tx.nextOffset + aligned ≤ tx.offsetOf tx.feedbackSeq then .available
  else if aligned > tx.exanicMaxTxChunkSize then .tooLarge
  else .wait

/-- "Not enough space, need to wrap around". -/
def wrapAround : ExanicTx := { tx with nextOffset := 0, rolloverSeq := tx.nextSeq }

/-- One iteration of the second loop, up to the update of the feedback. -/
def look (aligned : ℕ) : ExanicTx × Space :=
  -- check if we have not wrapped around since feedback_seq
  if tx.nextSeq - tx.feedbackSeq ≤ tx.nextSeq - tx.rolloverSeq then
    if tx.nextOffset + aligned ≤ tx.bufferSize then (tx, .available)
    else (tx.wrapAround, tx.wrapAround.behindFeedback aligned)
  else (tx, tx.behindFeedback aligned)

/-- Whether the chunk requests feedback.  `request_offset` is read before the loops;
they change neither `request_seq` nor the table. -/
def asksFeedback (aligned : ℕ) : Bool :=
  decide (tx.queueLen / 2 < (tx.nextSeq - tx.requestSeq).toNat) ||
    decide (tx.nextSeq - tx.rolloverSeq < tx.nextSeq - tx.requestSeq) ||
    decide (feedbackInterval < sizeSub (tx.nextOffset + aligned) (tx.offsetOf tx.requestSeq))

/-! ### `exanic_send_tx_chunk` -/

/-- `chunk->feedback_slot_index`. -/
def feedbackSlotIndex : UInt16 :=
  tx.feedbackSlot.toUInt16 ||| (if tx.needFeedback then 0 else 0x8000)

/-- The value written to `REG_PORT_TX_COMMAND`. -/
def command : ℕ := tx.nextOffset + tx.bufferOffset

/-- "Update state". -/
def sent (chunkSize : ℕ) : ExanicTx :=
  let nextOffset := tx.nextOffset + cacheAlign chunkSize
  { tx with
    nextOffset
    feedbackOffsets :=
      Function.update tx.feedbackOffsets (tx.nextSeq.toNat &&& (tx.queueLen - 1)) nextOffset
    requestSeq := if tx.needFeedback then tx.nextSeq else tx.requestSeq
    nextSeq := tx.nextSeq + 1 }

/-- The MSB tells whether feedback is wanted. -/
theorem feedbackSlotIndex_asks_iff :
    tx.feedbackSlotIndex &&& 0x8000 = 0 ↔ tx.needFeedback = true := by
  unfold feedbackSlotIndex
  cases tx.needFeedback with
  | true => simp [toUInt16_and_msb]
  | false =>
      rw [if_neg (by decide), or_and_absorb]
      decide

/-- The slot of a chunk that wants feedback is the one of the handle. -/
theorem feedbackSlotIndex_asks (asks : tx.feedbackSlotIndex &&& 0x8000 = 0) :
    tx.feedbackSlotIndex = tx.feedbackSlot.toUInt16 := by
  rw [feedbackSlotIndex, tx.feedbackSlotIndex_asks_iff.1 asks]
  exact UInt16.or_zero

theorem look_preparedChunk (n : ℕ) : (tx.look n).1.preparedChunk = tx.preparedChunk := by
  unfold look
  split
  · split <;> rfl
  · rfl

end ExanicTx

/-! ## Arithmetic of sizes -/

theorem le_cacheAlign (x : ℕ) : x ≤ cacheAlign x := by
  unfold cacheAlign
  omega

theorem cacheAlign_le {x limit : ℕ} (aligned : 64 ∣ limit) (le : x ≤ limit) :
    cacheAlign x ≤ limit := by
  unfold cacheAlign
  omega

theorem cacheAlign_mono {x y : ℕ} (le : x ≤ y) : cacheAlign x ≤ cacheAlign y := by
  unfold cacheAlign
  omega

theorem unit_le_cacheAlign {x : ℕ} (positive : 0 < x) : 64 ≤ cacheAlign x := by
  unfold cacheAlign
  omega

/-- The largest power of two that is not above `n`. -/
theorem roundDownPow2_eq {n : ℕ} (nonzero : n ≠ 0) (small : n < 2 ^ 32) :
    roundDownPow2 n = 2 ^ n.log2 := by
  have two := (Covers.refl n).step (s := 1) (by decide)
  have four := two.step (s := 2) (by decide)
  have eight := four.step (s := 4) (by decide)
  have sixteen := eight.step (s := 8) (by decide)
  have smeared := (sixteen.step (s := 16) (by decide)).full nonzero small
  simp only [roundDownPow2]
  rw [smeared, Nat.shiftRight_eq_div_pow, Nat.pow_succ]
  have := Nat.two_pow_pos n.log2
  omega

theorem sizeSub_of_le {a b : ℕ} (le : b ≤ a) (small : a < 2 ^ 64) : sizeSub a b = a - b := by
  unfold sizeSub
  omega

end ExanicCapture.Tx
